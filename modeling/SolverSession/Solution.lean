import SolverSession.SparseVec
import SolverSession.WarmStart

/-!
# Solutions

A solution has a primal part and, where the engine holds a valid dual point, a dual part; values are
kept sparse. It comes from an engine's lists, or from a starting point that replaces the lists it
supplies and leaves the others as they were.
-/
namespace SolverSession

structure DenseSolution where
  valueValid : Bool
  dualValid : Bool
  colValue : List Float
  colDual : List Float
  rowValue : List Float
  rowDual : List Float
deriving DecidableEq, Inhabited

def DenseSolution.none : DenseSolution := ⟨false,false,[],[],[],[]⟩

structure PointValues where
  vars : SparseVec Float
  constraints : SparseVec Float
deriving BEq, DecidableEq

namespace PointValues

def empty : PointValues := ⟨.empty,.empty⟩

def ofDense (vars constraints : List Float) : PointValues :=
  ⟨.ofDense vars,.ofDense constraints⟩

def isEmpty (v : PointValues) : Bool := v.vars.isEmpty && v.constraints.isEmpty

/-- Replaces the parts that are supplied. -/
def overwrite (v : PointValues) (vars constraints : Option (List Float)) :
    PointValues where
  vars := match vars with
    | none => v.vars
    | some values => .ofDense values
  constraints := match constraints with
    | none => v.constraints
    | some values => .ofDense values

end PointValues

structure Solution where
  isValueValid : Bool
  isDualValid : Bool
  primal : PointValues
  dual : Option PointValues
deriving BEq, DecidableEq

namespace Solution

def empty : Solution := ⟨false,false,.empty,none⟩

def ofEngine (raw : DenseSolution) : Solution where
  isValueValid := raw.valueValid
  isDualValid := raw.dualValid
  primal := if raw.valueValid then .ofDense raw.colValue raw.rowValue else .empty
  dual := if raw.dualValid then some (.ofDense raw.colDual raw.rowDual) else none

def applyStart (s : Solution) (start : WarmStart) : Solution where
  isValueValid := s.isValueValid || start.suppliesPrimal
  isDualValid := s.isDualValid || start.suppliesDual
  primal := s.primal.overwrite start.primalCols start.primalRows
  dual :=
    if start.suppliesDual then
      some ((s.dual.getD .empty).overwrite start.dualCols start.dualRows)
    else s.dual

/-- A start taken as the solution until there is a better one. -/
def ofStart (start : WarmStart) : Solution := empty.applyStart start

end Solution

end SolverSession
