import SolverSession.StackedMatrix
import SolverSession.Model

/-!
# Flat models

The lists an engine takes: costs and bounds by position, and the constraint rows and the Hessian
columns as compressed matrices. Flattening checks the Hessian first, then the objective weights,
then the constraints, and refuses a model with the first fault it meets. Batches are the same for
rows and columns that are added to a loaded model.
-/
namespace SolverSession

variable {α : Type}

inductive Sense where
  | minimize
  | maximize
deriving DecidableEq

def Sense.code : Sense → Int
  | .minimize => 1
  | .maximize => -1

structure FlatModel (α : Type) where
  numCols : Nat
  numRows : Nat
  sense : Sense
  offset : α
  colCost : List α
  colLower : List α
  colUpper : List α
  rowLower : List α
  rowUpper : List α
  rows : StackedMatrix α
  /-- The lower triangle of the Hessian, column by column; absent for a linear objective. -/
  hessian : Option (StackedMatrix α)
  /-- Absent if no variable is named; an unnamed one among others is called after its position. -/
  names : Option (List String)
  /-- The codes of the kinds; absent if every variable is continuous. -/
  integrality : Option (List Nat)
deriving DecidableEq

structure RowBatch (α : Type) where
  lower : List α
  upper : List α
  matrix : StackedMatrix α
deriving DecidableEq

structure ColumnBatch (α : Type) where
  costs : List α
  lower : List α
  upper : List α
  matrix : StackedMatrix α
  integrality : List Nat
deriving DecidableEq

def RowBatch.size (b : RowBatch α) : Nat := b.lower.length

def ColumnBatch.size (b : ColumnBatch α) : Nat := b.costs.length

def firstAboveDiagonal : Nat → List (SparseVec α) → Option ModelFault
  | _, [] => none
  | k, column :: rest =>
    match column.indices.find? (· < k) with
    | some row => some (.aboveDiagonal row k)
    | none => firstAboveDiagonal (k+1) rest

namespace Objective

def flattenHessian (o : Objective α) (n : Nat) : Except ModelFault (Option (StackedMatrix α)) :=
  if o.isQuadratic then
    if n < o.hessian.length then .error (.surplusHessian o.hessian.length n)
    else do
      let columns := o.hessian ++ List.replicate (n-o.hessian.length) .empty
      let matrix ← StackedMatrix.stack .columnWise columns n "hessian column"
      match firstAboveDiagonal 0 columns with
      | some fault => .error fault
      | none => .ok (some matrix)
  else .ok none

def flattenWeights [Zero α] (o : Objective α) (n : Nat) : Except ModelFault (List α) :=
  match o.weights.fault? n with
  | some fault => .error (.line "objective" fault)
  | none => .ok (o.weights.toDense n)

def sense (o : Objective α) : Sense := if o.maximize then .maximize else .minimize

end Objective

def Variable.nameAt (v : Variable α) (position : Nat) : String := v.name.getD s!"c{position}"

namespace Model

def integrality (m : Model α) : Option (List Nat) :=
  if m.vars.any (·.kind ≠ .continuous) then some (m.vars.map (·.kind.code)) else none

def columnNames (m : Model α) : Option (List String) :=
  if m.vars.any (·.name.isSome) then
    some (m.vars.zipIdx.map fun (v, position) => v.nameAt position)
  else none

def flattenRows (m : Model α) : Except ModelFault (StackedMatrix α) :=
  StackedMatrix.stack .rowWise (m.constraints.map (·.weights)) m.vars.length "constraint"

def toFlat (m : Model α) (sense : Sense) (offset : α) (costs : List α)
    (hessian : Option (StackedMatrix α)) (rows : StackedMatrix α) : FlatModel α where
  numCols := m.vars.length
  numRows := m.constraints.length
  sense := sense
  offset := offset
  colCost := costs
  colLower := m.vars.map (·.lower)
  colUpper := m.vars.map (·.upper)
  rowLower := m.constraints.map (·.lower)
  rowUpper := m.constraints.map (·.upper)
  rows := rows
  hessian := hessian
  names := m.columnNames
  integrality := m.integrality

/-- The model as lists, or the first fault in it. Without an objective all costs are zero. -/
def flatten [Zero α] (m : Model α) : Except ModelFault (FlatModel α) :=
  let n := m.vars.length
  match m.objective with
  | none => do return m.toFlat .minimize 0 (List.replicate n 0) none (← m.flattenRows)
  | some o => do
    let hessian ← o.flattenHessian n
    let costs ← o.flattenWeights n
    return m.toFlat o.sense o.offset costs hessian (← m.flattenRows)

end Model

def RowBatch.ofConstraints (rows : List (Constraint α)) (numCols : Nat) :
    Except ModelFault (RowBatch α) := do
  let matrix ← StackedMatrix.stack .rowWise (rows.map (·.weights)) numCols "new constraint"
  return ⟨rows.map (·.lower),rows.map (·.upper),matrix⟩

def ColumnBatch.ofColumns (columns : List (Column α)) (numRows : Nat) :
    Except ModelFault (ColumnBatch α) := do
  let matrix ← StackedMatrix.stack .columnWise (columns.map (·.weights)) numRows "new column"
  return {
    costs := columns.map (·.cost)
    lower := columns.map (·.var.lower)
    upper := columns.map (·.var.upper)
    matrix := matrix
    integrality := columns.map (·.var.kind.code) }

end SolverSession
