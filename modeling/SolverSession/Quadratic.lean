import SolverSession.Model

/-!
# Quadratic terms

Monomials are added to the Hessian of an objective. A monomial `c·xᵢ·xⱼ` contributes to the lower
triangle: twice its coefficient on the diagonal, the coefficient itself below it. Contributions to
one position are summed from left to right, those already in the Hessian first, and sums that are
zero leave no entry.
-/
namespace SolverSession

variable {α : Type}

structure Monomial (α : Type) where
  i : Nat
  j : Nat
  coefficient : α

structure Contribution (α : Type) where
  column : Nat
  row : Nat
  value : α

/-- Where a monomial goes and what it adds there. -/
def Monomial.contribution [Mul α] [OfNat α 2] (t : Monomial α) : Contribution α where
  column := min t.i t.j
  row := max t.i t.j
  value := if t.i = t.j then 2*t.coefficient else t.coefficient

namespace Hessian

def contributions : Nat → List (SparseVec α) → List (Contribution α)
  | _, [] => []
  | k, column :: rest =>
    column.entries.map (fun e => ⟨k,e.1,e.2⟩) ++ contributions (k+1) rest

def before (a b : Contribution α) : Bool :=
  a.column < b.column || (a.column == b.column && a.row ≤ b.row)

def width (cs : List (Contribution α)) : Nat := cs.foldl (fun n c => max n (c.column+1)) 0

/-- Sums neighbours in equal rows, from left to right; `row` and `sum` are the run in progress. -/
def mergeRun [Add α] (row : Nat) (sum : α) : List (Contribution α) → List (Nat × α)
  | [] => [(row,sum)]
  | c :: rest =>
    if c.row = row then mergeRun row (sum+c.value) rest
    else (row,sum) :: mergeRun c.row c.value rest

def mergeRows [Add α] : List (Contribution α) → List (Nat × α)
  | [] => []
  | c :: rest => mergeRun c.row c.value rest

def assemble [Zero α] [BEq α] [Add α] (cs : List (Contribution α)) : List (SparseVec α) :=
  (List.range (width cs)).map fun k =>
    SparseVec.ofPairs (mergeRows (cs.filter (·.column == k)))

def add [Zero α] [BEq α] [Add α] [Mul α] [OfNat α 2] (hessian : List (SparseVec α))
    (terms : List (Monomial α)) : List (SparseVec α) :=
  assemble ((contributions 0 hessian ++ terms.map Monomial.contribution).mergeSort before)

end Hessian

def Objective.addQuadratic [Zero α] [BEq α] [Add α] [Mul α] [OfNat α 2] (o : Objective α)
    (terms : List (Monomial α)) : Objective α :=
  { o with hessian := Hessian.add o.hessian terms }

end SolverSession
