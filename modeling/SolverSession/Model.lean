import SolverSession.SparseVec

/-!
# Optimisation models

Variables with bounds, linear constraints with bounds, and an objective
`c·x + x·Q·x/2 + offset` whose quadratic part is kept as the lower triangle of `Q`, column by
column. Variables and constraints are referred to by their position. The scalars are a parameter:
engines work on doubles, and the meaning of a model is read off over the rationals.
-/
namespace SolverSession

variable {α : Type}

inductive VariableKind where
  | continuous
  | integer
  | semiContinuous
  | semiInteger
  | implicitInteger
deriving BEq, DecidableEq, Inhabited

def VariableKind.code : VariableKind → Nat
  | .continuous => 0
  | .integer => 1
  | .semiContinuous => 2
  | .semiInteger => 3
  | .implicitInteger => 4

structure Variable (α : Type) where
  name : Option String
  kind : VariableKind
  lower : α
  upper : α
deriving BEq, DecidableEq

structure Constraint (α : Type) where
  weights : SparseVec α
  lower : α
  upper : α
deriving BEq, DecidableEq

/-- A variable for a model that is already loaded, with its cost and its coefficients in the
existing constraints. -/
structure Column (α : Type) where
  var : Variable α
  cost : α
  weights : SparseVec α
deriving BEq, DecidableEq

structure Objective (α : Type) where
  maximize : Bool
  weights : SparseVec α
  offset : α
  /-- Column `j` of the lower triangle of `Q`; columns at the end may be left out. -/
  hessian : List (SparseVec α)
deriving BEq, DecidableEq

/-- Some column of the Hessian has an index. -/
def Objective.isQuadratic (o : Objective α) : Bool := o.hessian.any (!·.isEmpty)

structure Model (α : Type) where
  objective : Option (Objective α)
  vars : List (Variable α)
  constraints : List (Constraint α)
deriving BEq, DecidableEq

namespace Model

def empty : Model α := ⟨none,[],[]⟩

def isEmpty (m : Model α) : Bool := m.vars.isEmpty && m.constraints.isEmpty

end Model

def unboundedBelow : Float := Float.ofBits 0xfff0000000000000

def unboundedAbove : Float := Float.ofBits 0x7ff0000000000000

def Variable.free (kind : VariableKind) : Variable Float :=
  ⟨none,kind,unboundedBelow,unboundedAbove⟩

namespace Constraint

def free (weights : SparseVec Float) : Constraint Float :=
  ⟨weights,unboundedBelow,unboundedAbove⟩

def atMost (weights : SparseVec Float) (bound : Float) : Constraint Float :=
  ⟨weights,unboundedBelow,bound⟩

def atLeast (weights : SparseVec Float) (bound : Float) : Constraint Float :=
  ⟨weights,bound,unboundedAbove⟩

def equal (weights : SparseVec Float) (bound : Float) : Constraint Float :=
  ⟨weights,bound,bound⟩

end Constraint

end SolverSession
