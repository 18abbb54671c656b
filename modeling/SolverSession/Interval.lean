import SolverSession.LinearProgram

/-!
# Intervals of rationals

What is known of a number: that it is not below one end and not above another. Two ends that
contradict each other by less than a slack are drawn together, and an interval is narrowed only by
an end that goes beyond its own by more than that.
-/
namespace SolverSession

/-- Neighbouring rationals; an end that is missing is no limit. -/
structure Interval where
  lower : Option Rat
  upper : Option Rat
deriving DecidableEq

namespace Interval

def point (x : Rat) : Interval := ⟨some x,some x⟩

def only? (r : Interval) : Option Rat :=
  match r.lower, r.upper with
  | some l, some u => if l = u then some l else none
  | _, _ => none

def plus : Option Rat → Option Rat → Option Rat
  | some a, some b => some (a+b)
  | _, _ => none

def add (r s : Interval) : Interval := ⟨plus r.lower s.lower,plus r.upper s.upper⟩

def scale (c : Rat) (r : Interval) : Interval :=
  if c = 0 then point 0
  else if 0 < c then ⟨r.lower.map (c*·),r.upper.map (c*·)⟩
  else ⟨r.upper.map (c*·),r.lower.map (c*·)⟩

def below (slack : Rat) (upper lower : Option Rat) : Bool :=
  match upper, lower with
  | some u, some l => decide (u+slack < l)
  | _, _ => false

def apart (slack : Rat) (r s : Interval) : Bool :=
  below slack s.upper r.lower || below slack r.upper s.lower

def within (slack : Rat) (r s : Interval) : Bool :=
  s.upper.all (fun u => r.upper.any (· ≤ u+slack)) &&
    s.lower.all (fun l => r.lower.any (l-slack ≤ ·))

/-- Ends that contradict each other by less than the slack become one: that which is whole, or the
middle. -/
def reconcile? (slack : Rat) (r : Interval) : Option Interval :=
  match r.lower, r.upper with
  | some l, some u =>
    if l ≤ u then some r
    else if l-u < slack then
      some (point (if l.den = 1 then l else if u.den = 1 then u else (l+u)/2))
    else none
  | _, _ => some r

def whole? (slack : Rat) (r : Interval) : Option Interval :=
  let s : Interval := ⟨r.lower.map fun l => ((l-slack).ceil : Int),
    r.upper.map fun u => ((u+slack).floor : Int)⟩
  if below 0 s.upper s.lower then none else some s

/-- The end that takes the place of a lower one that is more than the slack below it. For whole
numbers it is rounded up. -/
def raised? (slack : Rat) (whole : Bool) (old new : Option Rat) : Option Rat :=
  match new with
  | none => none
  | some x =>
    if old.all (·+slack < x) then some (if whole then ((x-slack).ceil : Int) else x) else none

def lowered? (slack : Rat) (whole : Bool) (old new : Option Rat) : Option Rat :=
  (raised? slack whole (old.map (-·)) (new.map (-·))).map (-·)

/-- Narrows an interval by the ends of another. Ends that contradict each other by less than the
slack, or are no further apart than it, become one: that which was there, or the middle if none
was. -/
def narrow? (slack : Rat) (whole : Bool) (r s : Interval) : Option Interval :=
  let lower := raised? slack whole r.lower s.lower
  let upper := lowered? slack whole r.upper s.upper
  match lower.or r.lower, upper.or r.upper with
  | some l, some u =>
    if u+slack ≤ l then none
    else if l+slack < u then some ⟨some l,some u⟩
    else some (point (match lower, upper with
      | some _, some _ => (l+u)/2
      | some _, none => u
      | none, _ => l))
  | l, u => some ⟨l,u⟩

end Interval
end SolverSession
