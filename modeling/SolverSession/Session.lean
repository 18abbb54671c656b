import SolverSession.SessionConfig
import SolverSession.Engine

/-!
# Sessions

A session owns one engine. It remembers the status and the dimensions of the loaded model and the
solution last known, and checks every model, batch and starting point against them before the engine
sees it. What is remembered is brought back in line with the engine after every call that may have
changed it: a load that fails may have cleared the model, and an added row may have invalidated the
solution.
-/
namespace SolverSession

variable {σ β γ : Type}

structure Session (σ : Type) where
  engine : σ
  status : ModelStatus
  numCols : Nat
  numRows : Nat
  /-- The last solve, or a starting point taken since. -/
  cached : Option Solution
deriving DecidableEq

structure Answer (σ β : Type) where
  outcome : Outcome Failure β
  session : Session σ
  events : List Event

namespace Answer

def after (earlier : List Event) (a : Answer σ β) : Answer σ β :=
  { a with events := earlier ++ a.events }

end Answer

namespace Session

def succeed (s : Session σ) (x : β) (events : List Event) : Answer σ β := ⟨.ok x,s,events⟩

def fail (s : Session σ) (cause : Failure) (events : List Event) : Answer σ β :=
  ⟨.failed cause,s,events⟩

def calling (s : Session σ) (call : EngineCall) (reply : Reply σ)
    (refused : String → Session σ → Answer σ β) (returned : Session σ → Answer σ β) : Answer σ β :=
  let next := { s with engine := reply.engine }
  let answer := match reply.outcome with
    | .ok () => returned next
    | .failed message => refused message next
    | .crashed => ⟨.crashed,next,[]⟩
  answer.after (.call call :: reply.log.map .log)

def refusedBy (method : Method) (message : String) (s : Session σ) : Answer σ β :=
  s.fail (.native method message) []

variable [Engine σ]

def followEngine (s : Session σ) : Session σ where
  engine := s.engine
  status := .ofCode (Engine.modelStatus s.engine)
  numCols := Engine.numCols s.engine
  numRows := Engine.numRows s.engine
  cached := none

def loadRejected (s : Session σ) : Event :=
  .warn s!"Model load rejected, engine now holds {s.numCols} columns and {s.numRows} rows"

omit [Engine σ] in
def loaded (s : Session σ) (numCols numRows : Nat) : Session σ :=
  ⟨s.engine,.notSet,numCols,numRows,none⟩

def load (s : Session σ) (model : Model Float) : Answer σ Unit :=
  match model.flatten with
  | .error fault => s.fail (.invalidModel fault) []
  | .ok flat =>
    s.calling (.passModel flat) (Engine.passModel flat s.engine)
      (fun message s =>
        let s := s.followEngine
        s.fail (.native .passModel message) [s.loadRejected])
      (fun s =>
        let s := s.loaded flat.numCols flat.numRows
        let size := s!"{s.numCols} columns, {s.numRows} rows, {flat.rows.numNonzeros} non-zeros"
        s.succeed () [.info s!"Loaded model with {size}"])

def loadFile (s : Session σ) (path : String) : Answer σ Unit :=
  s.calling (.readModel path) (Engine.readModel path s.engine)
    (fun message s =>
      let s := s.followEngine
      s.fail (.unreadable path message) [s.loadRejected])
    (fun s =>
      let s := s.loaded (Engine.numCols s.engine) (Engine.numRows s.engine)
      s.succeed () [.info s!"Read model from {path} ({s.numCols} columns, {s.numRows} rows)"])

/-- What is remembered after rows or columns were added, and what is logged on the way. A cached
solution is read again, and is dropped unless the engine still holds a valid point. -/
def refresh (s : Session σ) : Session σ × List Event :=
  let s := { s with status := .ofCode (Engine.modelStatus s.engine) }
  match s.cached with
  | none => (s,[])
  | some _ =>
    let raw := Engine.solution s.engine
    let logged := (Engine.reading s.engine).map .log
    if raw.valueValid || raw.dualValid then ({ s with cached := some (.ofEngine raw) },logged)
    else ({ s with cached := none },
      logged ++ [.debug "Engine invalidated its solution, dropping cached values"])

def addConstraints (s : Session σ) (rows : List (Constraint Float)) : Answer σ Unit :=
  match RowBatch.ofConstraints rows s.numCols with
  | .error fault => s.fail (.invalidModel fault) []
  | .ok batch =>
    if batch.size = 0 then s.succeed () []
    else
      s.calling (.addRows batch) (Engine.addRows batch s.engine) (refusedBy .addRows) fun s =>
        let (s,dropped) := { s with numRows := s.numRows+batch.size }.refresh
        s.succeed () (dropped ++
          [.debug s!"Added {batch.size} rows, model now has {s.numRows} rows"])

def addVariables (s : Session σ) (columns : List (Column Float)) : Answer σ Unit :=
  match ColumnBatch.ofColumns columns s.numRows with
  | .error fault => s.fail (.invalidModel fault) []
  | .ok batch =>
    if batch.size = 0 then s.succeed () []
    else
      s.calling (.addCols batch) (Engine.addCols batch s.engine) (refusedBy .addCols) fun s =>
        let (s,dropped) := { s with numCols := s.numCols+batch.size }.refresh
        s.succeed () (dropped ++
          [.debug s!"Added {batch.size} columns, model now has {s.numCols} columns"])

/-- Gives the engine a starting point, which stands for the solution until the next solve. -/
def warmStart (s : Session σ) (start : WarmStart) : Answer σ Unit :=
  match start.fault? s.numCols s.numRows with
  | some fault => s.fail (.invalidStart fault) []
  | none =>
    s.calling (.setSolution start) (Engine.setSolution start s.engine) (refusedBy .setSolution)
      fun s => { s with cached := some ((s.cached.getD .empty).applyStart start) }.succeed ()
        [.debug s!"Accepted warm start ({start.summary})"]

def solved (s : Session σ) : Session σ :=
  { s with
    status := .ofCode (Engine.modelStatus s.engine)
    cached := some (.ofEngine (Engine.solution s.engine)) }

/-- The record of a finished solve that is a success only because any status is welcome. -/
def tolerated (status : ModelStatus) (primal : PointStatus) : List Event :=
  if status.isSuccess primal then []
  else [.debug s!"Tolerating non-optimal status {status.message} (allow_non_optimal)"]

def conclude (s : Session σ) (primal : PointStatus) (options : SolveOptions) :
    Answer σ ModelStatus :=
  match options.accept s.status primal with
  | .ok () => s.succeed s.status (tolerated s.status primal)
  | .error cause => s.fail cause []

def solveFinished (status : ModelStatus) (info : Diagnostics) : Event :=
  let objective := logLayout.display info.objectiveValue
  let work := s!"{info.simplexIterations} simplex iterations"
  .info s!"Solve finished: {status.message} (objective {objective}, {work})"

/-- Solves the model. Status and solution are those of the engine, also where the outcome is not
accepted. -/
def solve (s : Session σ) (options : SolveOptions) : Answer σ ModelStatus :=
  s.calling .run (Engine.run s.engine) (refusedBy .run) fun s =>
    let s := s.solved
    let info := Engine.info s.engine
    (s.conclude info.primalPoint options).after
      ((Engine.reading s.engine).map .log ++ [solveFinished s.status info])

/-- What is known of the primal point; nothing while no solve has set a status. -/
def pointStatus (s : Session σ) : PointStatus :=
  match s.status with
  | .notSet => .noSolution
  | _ => (Engine.info s.engine).primalPoint

def solution (s : Session σ) : Solution := s.cached.getD .empty

def info (s : Session σ) : Diagnostics := Engine.info s.engine

def unsuitable (name : String) (kind : OptionKind) (value : OptionValue) : Failure :=
  .native .setOption s!"option {name} expects a {kind.name} value, got {value.display}"

def checkOptions (engine : σ) :
    List (String × OptionValue) → Except Failure (List (String × OptionValue)) × List Event
  | [] => (.ok [],[])
  | (name,value) :: rest =>
    let asked := Event.call (.optionKind name)
    match Engine.optionKind name engine with
    | .error message => (.error (.native .setOption message),[asked])
    | .ok kind =>
      match value.asKind kind with
      | none => (.error (unsuitable name kind value),[asked])
      | some value =>
        let (checked,events) := checkOptions engine rest
        (checked.map ((name,value) :: ·),asked :: events)

def currentValues (engine : σ) :
    List (String × OptionValue) → Except Failure (List OptionValue) × List Event
  | [] => (.ok [],[])
  | (name,_) :: rest =>
    let asked := Event.call (.getOption name)
    match Engine.getOption name engine with
    | .error message => (.error (.native .getOption message),[asked])
    | .ok value =>
      let (values,events) := currentValues engine rest
      (values.map (value :: ·),asked :: events)

def undoOptions (s : Session σ) : List (String × OptionValue) → Answer σ Unit
  | [] => s.succeed () []
  | (name,value) :: rest =>
    s.calling (.setOption name value) (Engine.setOption name value s.engine)
      (fun message s => (s.undoOptions rest).after
        [.warn s!"Could not restore option {name}: {message}"])
      (fun s => s.undoOptions rest)

/-- Sets options in order; each comes with its new and its earlier value. When one is refused, those
in `applied`, last one first, get their earlier values back. -/
def applyOptions (s : Session σ) (applied : List (String × OptionValue)) :
    List ((String × OptionValue) × OptionValue) → Answer σ Unit
  | [] => s.succeed () []
  | ((name,value),earlier) :: rest =>
    s.calling (.setOption name value) (Engine.setOption name value s.engine)
      (fun message s =>
        let restored := s.undoOptions applied
        match restored.outcome with
        | .ok () => (restored.session.fail (.native .setOption message) []).after restored.events
        | _ => restored)
      (fun s => s.applyOptions ((name,earlier) :: applied) rest)

/-- Sets options, all or none: every name and value is checked before the first is set, and what was
set is undone if the engine refuses a later one. -/
def setOptions (s : Session σ) (options : List (String × OptionValue)) : Answer σ Unit :=
  match checkOptions s.engine options with
  | (.error cause,events) => s.fail cause events
  | (.ok checked,events) =>
    match currentValues s.engine checked with
    | (.error cause,more) => s.fail cause (events ++ more)
    | (.ok values,more) => (s.applyOptions [] (checked.zip values)).after (events ++ more)

def option (s : Session σ) (name : String) : Answer σ OptionValue :=
  let asked := [Event.call (.getOption name)]
  match Engine.getOption name s.engine with
  | .error message => s.fail (.native .getOption message) asked
  | .ok value => s.succeed value asked

def writeModel (s : Session σ) (path : String) : Answer σ Unit :=
  s.calling (.writeModel path) (Engine.writeModel path s.engine) (refusedBy .writeModel)
    fun s => s.succeed () []

def writeSolution (s : Session σ) (path : String) (style : ReportStyle) : Answer σ Unit :=
  s.calling (.writeSolution path style) (Engine.writeSolution path style s.engine)
    (refusedBy .writeSolution) fun s => s.succeed () []

def reset (s : Session σ) : Answer σ Unit :=
  s.calling .clearSolver (Engine.clearSolver s.engine) (refusedBy .clearSolver) fun s =>
    let s := { s with cached := none, status := .ofCode (Engine.modelStatus s.engine) }
    s.succeed () (if s.status = .notSet then []
      else [.warn s!"Engine kept status {s.status.message} after clearing"])

/-- A session over an engine, with its configuration applied. The options come in the order of the
configuration, the log sink first. -/
def create (engine : σ) (config : SessionConfig) : Answer σ Unit :=
  let s : Session σ := ⟨engine,.notSet,Engine.numCols engine,Engine.numRows engine,none⟩
  let a := s.setOptions config.settings
  match a.outcome with
  | .ok () =>
    let version := Engine.version a.session.engine
    let count := config.options.entries.length
    (a.session.succeed () [.debug
      s!"Created solver (engine {version}, {count} options)"]).after a.events
  | _ => a

def close (s : Session σ) : List Event :=
  .debug "Releasing solver engine" :: (Engine.closing s.engine).map .log

end Session
end SolverSession
