import SolverSession.SparseVec

/-!
# Compressed matrices

Sparse lines stacked one after the other. Line `k` occupies the positions from `offsets[k]` up to
`offsets[k+1]` of the two data lists; a line is a row or a column as the format says. Stacking
checks every line, and reports the first one that is at fault.
-/
namespace SolverSession

variable {α : Type}

inductive Orientation where
  | columnWise
  | rowWise
deriving DecidableEq

def Orientation.code : Orientation → Nat
  | .columnWise => 1
  | .rowWise => 2

/-- What makes model data unusable. A line fault names the line, as in `constraint 3`. -/
inductive ModelFault where
  | line (what : String) (fault : RowFault)
  | surplusHessian (columns vars : Nat)
  | aboveDiagonal (row column : Nat)
deriving DecidableEq

def ModelFault.message : ModelFault → String
  | .line what fault => fault.message what
  | .surplusHessian columns vars =>
    s!"hessian has {columns} columns but the model has {vars} variables"
  | .aboveDiagonal row column => s!"hessian entry ({row}, {column}) is above the diagonal"

structure StackedMatrix (α : Type) where
  format : Orientation
  offsets : List Nat
  indices : List Nat
  values : List α
deriving DecidableEq

def runningTotals : Nat → List Nat → List Nat
  | total, [] => [total]
  | total, n :: rest => total :: runningTotals (total+n) rest

def firstLineFault (what : String) (bound : Nat) : Nat → List (SparseVec α) → Option ModelFault
  | _, [] => none
  | k, line :: rest =>
    match line.fault? bound with
    | some fault => some (.line s!"{what} {k}" fault)
    | none => firstLineFault what bound (k+1) rest

namespace StackedMatrix

/-- The lines one after the other, without a check. -/
def concat (format : Orientation) (lines : List (SparseVec α)) : StackedMatrix α where
  format := format
  offsets := runningTotals 0 (lines.map (·.indices.length))
  indices := lines.flatMap (·.indices)
  values := lines.flatMap (·.values)

def stack (format : Orientation) (lines : List (SparseVec α)) (bound : Nat) (what : String) :
    Except ModelFault (StackedMatrix α) :=
  match firstLineFault what bound 0 lines with
  | some fault => .error fault
  | none => .ok (concat format lines)

def numLines (m : StackedMatrix α) : Nat := m.offsets.length-1

def numNonzeros (m : StackedMatrix α) : Nat := m.values.length

/-- Line `k`, if the offsets have one and it lies inside the data. -/
def line? (m : StackedMatrix α) (k : Nat) : Option (SparseVec α) := do
  let first ← m.offsets[k]?
  let last ← m.offsets[k+1]?
  if first ≤ last ∧ last ≤ m.indices.length ∧ last ≤ m.values.length then
    some ⟨(m.indices.drop first).take (last-first),(m.values.drop first).take (last-first)⟩
  else none

def lines (m : StackedMatrix α) : List (SparseVec α) :=
  (List.range m.numLines).filterMap m.line?

end StackedMatrix
end SolverSession
