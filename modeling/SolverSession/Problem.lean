import SolverSession.Interval
import SolverSession.IntegerProgram

/-!
# Optimization problems

Unknown numbers with costs and ranges, and bands that products of the unknowns must keep within. A
problem is reduced before it is solved: a band that every point of the unknowns' ranges keeps within
is left out, one that no such point keeps within makes the problem infeasible, and a band with one
open unknown narrows its range. Each of these tests has a tolerance, which is part of what is
solved.
-/
namespace SolverSession

structure Unknown where
  cost : Rat
  range : Interval
  whole : Bool
deriving DecidableEq

structure Band where
  coefficients : List Rat
  range : Interval
deriving DecidableEq

structure Problem where
  unknowns : List Unknown
  bands : List Band
deriving DecidableEq

namespace Interval

def inequalities (coefficients : List Rat) (r : Interval) : List Inequality :=
  (r.lower.map fun l => (⟨coefficients.map (-·),-l⟩ : Inequality)).toList
    ++ (r.upper.map fun u => (⟨coefficients,u⟩ : Inequality)).toList

end Interval

namespace Band

def reach (unknowns : List Unknown) (b : Band) : Interval :=
  (b.coefficients.zip unknowns).foldl (fun sum (c,unknown) => sum.add (unknown.range.scale c))
    (.point 0)

def opened (unknowns : List Unknown) (b : Band) : List (Rat × Nat) :=
  ((b.coefficients.zip unknowns).zipIdx.filter fun ((c,unknown),_) =>
    c != 0 && unknown.range.only?.isNone).map fun ((c,_),j) => (c,j)

def settled (unknowns : List Unknown) (b : Band) : Rat :=
  (b.coefficients.zip unknowns).foldl
    (fun sum (c,unknown) => sum+c*unknown.range.only?.getD 0) 0

/-- The unknowns as the band leaves them, and whether it is still needed. The slack of an unknown
that is narrowed is what keeps both it and the product within the tolerance. -/
def impose? (unknowns : List Unknown) (b : Band) : Option (List Unknown × Bool) :=
  let reach := b.reach unknowns
  if reach.within IntegerProgram.tolerance b.range then some (unknowns,false)
  else match b.opened unknowns with
    | [(c,j)] => match unknowns[j]? with
      | none => some (unknowns,true)
      | some unknown =>
        let size := if c < 0 then -c else c
        let slack := IntegerProgram.tolerance/(if size < 1 then 1 else size)
        let implied := (b.range.add (.point (-b.settled unknowns))).scale (1/c)
        (unknown.range.narrow? slack unknown.whole implied).map fun range =>
          (unknowns.set j { unknown with range := range },false)
    | _ =>
      if reach.apart IntegerProgram.tolerance b.range then none else some (unknowns,true)

def imposeAll? (unknowns : List Unknown) : List Band → Option (List Unknown × List Band)
  | [] => some (unknowns,[])
  | b :: bands => match b.impose? unknowns with
    | none => none
    | some (unknowns,needed) => (imposeAll? unknowns bands).map fun (unknowns,kept) =>
      (unknowns,if needed then b :: kept else kept)

end Band

namespace Problem

def roundWhole? (unknowns : List Unknown) : Option (List Unknown) :=
  unknowns.mapM fun c =>
    if c.whole then
      (c.range.whole? IntegerProgram.wholeTolerance).map fun range => { c with range := range }
    else some c

def reconcile? (p : Problem) : Option Problem := do
  let unknowns ← p.unknowns.mapM fun c =>
    (c.range.reconcile? IntegerProgram.tolerance).map fun range => { c with range := range }
  let bands ← p.bands.mapM fun b =>
    (b.range.reconcile? IntegerProgram.tolerance).map fun range => { b with range := range }
  return ⟨unknowns,bands⟩

/-- Applies the bands and rounds the unknowns until the problem stays as it is. Every round but the
first and the last leaves out a band. -/
def reduce? : Nat → Problem → Option Problem
  | 0, p => some p
  | fuel+1, p => do
    let (unknowns,bands) ← Band.imposeAll? p.unknowns p.bands
    let unknowns ← roundWhole? unknowns
    let q : Problem := ⟨unknowns,bands⟩
    if q = p then some p else reduce? fuel q

/-- The problem as a program. The bands may be violated a little, the ranges of unknowns not. -/
def program (p : Problem) : IntegerProgram :=
  let n := p.unknowns.length
  { size := n
    costs := p.unknowns.map (·.cost)
    integers := (p.unknowns.zipIdx.filter (·.1.whole)).map (·.2)
    firm := p.unknowns.zipIdx.flatMap fun (c,j) => c.range.inequalities (LinearProgram.unit n j 1)
    loose := p.bands.flatMap fun b => b.range.inequalities b.coefficients }

def solve (p : Problem) (fuel : Nat) : LinearProgram.Verdict :=
  match p.reconcile? >>= reduce? (p.bands.length+2) with
  | none => .infeasible
  | some p => p.program.solve fuel

end Problem
end SolverSession
