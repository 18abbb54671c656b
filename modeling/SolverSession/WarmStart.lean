/-!
# Starting points

A starting point supplies some of four lists: values and duals of the columns and of the rows. Each
list it supplies has to cover the loaded model; `WarmStart.fault?` names the first that does not.
-/
namespace SolverSession

/-- A candidate point. Each list that is present covers all columns or all rows. -/
structure WarmStart where
  primalCols : Option (List Float)
  primalRows : Option (List Float)
  dualCols : Option (List Float)
  dualRows : Option (List Float)
deriving BEq, DecidableEq

inductive StartField where
  | primalCols
  | primalRows
  | dualCols
  | dualRows
deriving DecidableEq

def StartField.name : StartField → String
  | .primalCols => "primal_columns"
  | .primalRows => "primal_rows"
  | .dualCols => "dual_columns"
  | .dualRows => "dual_rows"

namespace WarmStart

def empty : WarmStart := ⟨none,none,none,none⟩

def suppliesPrimal (s : WarmStart) : Bool := s.primalCols.isSome || s.primalRows.isSome

def suppliesDual (s : WarmStart) : Bool := s.dualCols.isSome || s.dualRows.isSome

def summary (s : WarmStart) : String :=
  s!"primal: {s.suppliesPrimal}, dual: {s.suppliesDual}"

def get (s : WarmStart) : StartField → Option (List Float)
  | .primalCols => s.primalCols
  | .primalRows => s.primalRows
  | .dualCols => s.dualCols
  | .dualRows => s.dualRows

end WarmStart

def StartField.expected (numCols numRows : Nat) : StartField → Nat
  | .primalCols | .dualCols => numCols
  | .primalRows | .dualRows => numRows

structure StartFault where
  field : StartField
  expected : Nat
  got : Nat
deriving DecidableEq

/-- The first list whose length is not that of the model, in the order of their declaration. -/
def WarmStart.fault? (s : WarmStart) (numCols numRows : Nat) : Option StartFault :=
  [StartField.primalCols,.primalRows,.dualCols,.dualRows].findSome? fun field =>
    match s.get field with
    | none => none
    | some values =>
      let expected := field.expected numCols numRows
      if values.length = expected then none else some ⟨field,expected,values.length⟩

theorem WarmStart.fault?_eq_none_iff {s : WarmStart} {numCols numRows : Nat} :
    s.fault? numCols numRows = none ↔
      ∀ field values, s.get field = some values →
        values.length = field.expected numCols numRows := by
  simp only [fault?, List.findSome?_eq_none_iff]
  constructor
  · intro h field values hget
    have hfield : field ∈ [StartField.primalCols,.primalRows,.dualCols,.dualRows] := by
      cases field <;> decide
    have hnone := h field hfield
    simp only [hget] at hnone
    split at hnone
    · assumption
    · cases hnone
  · intro h field _
    cases hget : s.get field with
    | none => rfl
    | some values => simp [h field values hget]

end SolverSession
