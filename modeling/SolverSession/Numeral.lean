import SolverSession.Decimal

/-!
# Numerals

A numeral is a number as it is written: a sign, the digits before and after the point, and an
exponent. Doubles are written with their shortest digits; a layout says between which powers of
ten the point is placed without an exponent.
-/
namespace SolverSession

structure Numeral where
  negative : Bool
  whole : Nat
  /-- The digits after the point; there is no point without them. -/
  fraction : List Nat
  exponent : Option Int
deriving DecidableEq, Inhabited

/-- A number is written out if the exponent of its leading digit is `plainFrom` or more and less
than `plainBelow`; with `pointZero` it then has a fraction even if it is whole. -/
structure Layout where
  plainFrom : Int
  plainBelow : Int
  pointZero : Bool
  tie : Tie

namespace Numeral

def digitsOf (n : Nat) : List Nat := (Nat.toDigits 10 n).map fun c => c.toNat-48

def isDigit (c : Char) : Bool := '0' ≤ c && c ≤ '9'

def takeDigits (cs : List Char) : List Nat × List Char :=
  let (ds,rest) := cs.span isDigit
  (ds.map fun c => c.toNat-48,rest)

def ofDigits (n : Nat) (digits : List Nat) : Nat := digits.foldl (fun n d => 10*n+d) n

def ofInt (n : Int) : Numeral := ⟨decide (n < 0),n.natAbs,[],none⟩

/-- The integer, if it is written without point and exponent and is not a negative zero. -/
def toInt? (n : Numeral) : Option Int :=
  if n.fraction ≠ [] ∨ n.exponent.isSome then none
  else if n.negative then (if n.whole = 0 then none else some (-n.whole))
  else some n.whole

def ofDecimal (layout : Layout) (negative : Bool) (d : Decimal) : Numeral :=
  let digits := digitsOf d.digits
  let point : Int := digits.length+d.exponent
  if layout.plainFrom ≤ point-1 ∧ point-1 < layout.plainBelow then
    let last := if layout.pointZero then [0] else []
    if point ≤ 0 then ⟨negative,0,List.replicate (-point).toNat 0 ++ digits,none⟩
    else if digits.length ≤ point then
      ⟨negative,d.digits*Nat.pow 10 (point-digits.length).toNat,last,none⟩
    else
      ⟨negative,ofDigits 0 (digits.take point.toNat),digits.drop point.toNat,none⟩
  else ⟨negative,digits.headD 0,digits.tail,some (point-1)⟩

def ofFloat (layout : Layout) (x : Float) : Numeral :=
  let negative := decide (0x8000000000000000 ≤ x.toBits.toNat)
  if x == 0 then ⟨negative,0,if layout.pointZero then [0] else [],none⟩
  else ofDecimal layout negative (Decimal.shortest layout.tie x.abs)

def digitText (digits : List Nat) : List Char := digits.map Nat.digitChar

def text (n : Numeral) (plus : Bool) : List Char :=
  (if n.negative then ['-'] else [])
    ++ Nat.toDigits 10 n.whole
    ++ (if n.fraction = [] then [] else '.' :: digitText n.fraction)
    ++ match n.exponent with
      | none => []
      | some e =>
        'e' :: (if e < 0 then ['-'] else if plus then ['+'] else []) ++ Nat.toDigits 10 e.natAbs

end Numeral

def Layout.display (layout : Layout) (x : Float) : String :=
  if x.isNaN then "NaN"
  else if x.isInf then (if x < 0 then "-inf" else "inf")
  else String.ofList ((Numeral.ofFloat layout x).text false)

def logLayout : Layout := ⟨-1000,1000,false,.up⟩

end SolverSession
