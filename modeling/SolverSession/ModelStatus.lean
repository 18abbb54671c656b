/-!
# Outcomes of a solve

An engine reports an open-ended integer status. `ModelStatus.ofCode` reads it through a table, and
a code outside the table is kept as it is. `ModelStatus.isSuccess` decides which outcomes count as a
success: an optimal or empty model, or a limit that was reached with a feasible point in hand.
-/
namespace SolverSession

inductive ModelStatus where
  | notSet
  | loadError
  | modelError
  | presolveError
  | solveError
  | postsolveError
  | modelEmpty
  | optimal
  | infeasible
  | unboundedOrInfeasible
  | unbounded
  | objectiveBound
  | objectiveTarget
  | timeLimit
  | iterationLimit
  | unknown
  | solutionLimit
  | interrupt
  | memoryLimit
  /-- A code without an entry in the table. -/
  | unrecognized (code : Int32)
deriving BEq, DecidableEq, Inhabited

namespace ModelStatus

def table : List (Int32 × ModelStatus) :=
  [(0,notSet),(1,loadError),(2,modelError),(3,presolveError),(4,solveError),(5,postsolveError),
   (6,modelEmpty),(7,optimal),(8,infeasible),(9,unboundedOrInfeasible),(10,unbounded),
   (11,objectiveBound),(12,objectiveTarget),(13,timeLimit),(14,iterationLimit),(15,unknown),
   (16,solutionLimit),(17,interrupt),(18,memoryLimit)]

def ofCode (code : Int32) : ModelStatus :=
  match table.find? (·.1 == code) with
  | some (_,status) => status
  | none => unrecognized code

def code : ModelStatus → Int32
  | unrecognized code => code
  | notSet => 0
  | loadError => 1
  | modelError => 2
  | presolveError => 3
  | solveError => 4
  | postsolveError => 5
  | modelEmpty => 6
  | optimal => 7
  | infeasible => 8
  | unboundedOrInfeasible => 9
  | unbounded => 10
  | objectiveBound => 11
  | objectiveTarget => 12
  | timeLimit => 13
  | iterationLimit => 14
  | unknown => 15
  | solutionLimit => 16
  | interrupt => 17
  | memoryLimit => 18

def label : ModelStatus → String
  | notSet => "Not Set"
  | loadError => "Load error"
  | modelError => "Model error"
  | presolveError => "Presolve error"
  | solveError => "Solve error"
  | postsolveError => "Postsolve error"
  | modelEmpty => "Empty"
  | optimal => "Optimal"
  | infeasible => "Infeasible"
  | unboundedOrInfeasible => "Primal infeasible or unbounded"
  | unbounded => "Unbounded"
  | objectiveBound => "Bound on objective reached"
  | objectiveTarget => "Target for objective reached"
  | timeLimit => "Time limit reached"
  | iterationLimit => "Iteration limit reached"
  | unknown => "Unknown"
  | solutionLimit => "Solution limit reached"
  | interrupt => "Interrupted by user"
  | memoryLimit => "Memory limit reached"
  | unrecognized _ => "Unrecognized"

def message : ModelStatus → String
  | unrecognized code => s!"Unrecognized ({code})"
  | status => status.label

def isLimit : ModelStatus → Bool
  | objectiveBound | objectiveTarget | timeLimit | iterationLimit | solutionLimit | interrupt
  | memoryLimit => true
  | _ => false

end ModelStatus

inductive PointStatus where
  | noSolution
  | infeasible
  | feasible
deriving BEq, DecidableEq, Inhabited

/-- The point status a code stands for; an unknown code stands for none. -/
def PointStatus.ofCode (code : Int32) : PointStatus :=
  if code = 1 then .infeasible else if code = 2 then .feasible else .noSolution

def ModelStatus.isSuccess (status : ModelStatus) (primal : PointStatus) : Bool :=
  status = .optimal || status = .modelEmpty || (status.isLimit && primal = .feasible)

structure SolveOptions where
  /-- Any finished status is a success. -/
  allowNonOptimal : Bool
deriving BEq, DecidableEq

end SolverSession
