import SolverSession.StackedMatrix
import SolverSession.ModelStatus
import SolverSession.WarmStart

/-!
# Failures of a session

A call either returns, fails with a cause, or is cut short without an answer. Causes are bad data,
which no engine sees, a call the engine refused, a file it could not read, and a solve that finished
with a status nobody asked to accept.
-/
namespace SolverSession

inductive Outcome (ε β : Type) where
  | ok (x : β)
  | failed (cause : ε)
  /-- The call was cut short. -/
  | crashed
deriving DecidableEq

inductive Method where
  | create
  | passModel
  | readModel
  | addRows
  | addCols
  | setSolution
  | run
  | setOption
  | getOption
  | writeModel
  | writeSolution
  | clearSolver
deriving DecidableEq

def Method.name : Method → String
  | .create => "create"
  | .passModel => "passModel"
  | .readModel => "readModel"
  | .addRows => "addRows"
  | .addCols => "addCols"
  | .setSolution => "setSolution"
  | .run => "run"
  | .setOption => "setOption"
  | .getOption => "getOption"
  | .writeModel => "writeModel"
  | .writeSolution => "writeSolution"
  | .clearSolver => "clearSolver"

inductive Failure where
  | invalidStart (fault : StartFault)
  | nonOptimal (status : ModelStatus)
  | native (method : Method) (message : String)
  | unreadable (path message : String)
  | invalidModel (fault : ModelFault)
deriving DecidableEq

def Failure.message : Failure → String
  | .invalidStart ⟨field,expected,got⟩ =>
    s!"invalid warm start: {field.name} has length {got}, expected {expected}"
  | .nonOptimal status => s!"solve finished with non-optimal status: {status.message}"
  | .native method message => s!"native call {method.name} failed: {message}"
  | .unreadable path message => s!"failed to read model from {path}: {message}"
  | .invalidModel fault => s!"invalid model: {fault.message}"

def SolveOptions.accept (options : SolveOptions) (status : ModelStatus) (primal : PointStatus) :
    Except Failure Unit :=
  if status.isSuccess primal || options.allowNonOptimal then .ok () else .error (.nonOptimal status)

end SolverSession
