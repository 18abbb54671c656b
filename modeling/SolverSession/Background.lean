import SolverSession.Session

/-!
# Sessions in the background

Calls that may take long are handed to a pool of workers. A call that was handed over waits until a
worker starts it, holds the session from then on, and gives it back when it ends. The client awaits
the call or abandons it; an abandoned call goes on by itself. Short calls are made by the client,
and fail at once while a worker holds the session.

`Pool.step` is one step of client or pool. Workers may start waiting calls in any order and at any
time while the session is free.
-/
namespace SolverSession

variable {σ : Type}

inductive LongCall where
  | load (model : Model Float)
  | loadFile (path : String)
  | solve (options : SolveOptions)
  | writeModel (path : String)
  | writeSolution (path : String) (style : ReportStyle)

inductive ShortCall where
  | addConstraints (rows : List (Constraint Float))
  | addVariables (columns : List (Column Float))
  | warmStart (start : WarmStart)
  | setOptions (options : List (String × OptionValue))
  | option (name : String)
  | reset

def Answer.mapValue {β γ : Type} (f : β → γ) (a : Answer σ β) : Answer σ γ where
  outcome := match a.outcome with
    | .ok x => .ok (f x)
    | .failed cause => .failed cause
    | .crashed => .crashed
  session := a.session
  events := a.events

namespace LongCall

def method : LongCall → Method
  | load _ => .passModel
  | loadFile _ => .readModel
  | solve _ => .run
  | writeModel _ => .writeModel
  | writeSolution _ _ => .writeSolution

def perform [Engine σ] (s : Session σ) : LongCall → Answer σ (Option ModelStatus)
  | load model => (s.load model).mapValue fun _ => none
  | loadFile path => (s.loadFile path).mapValue fun _ => none
  | solve options => (s.solve options).mapValue some
  | writeModel path => (s.writeModel path).mapValue fun _ => none
  | writeSolution path style => (s.writeSolution path style).mapValue fun _ => none

/-- What is seen of the call as soon as it is started: a solve is inside the engine. -/
def entry : LongCall → List Event
  | solve _ => [.call .run]
  | _ => []

end LongCall

namespace ShortCall

def method : ShortCall → Method
  | addConstraints _ => .addRows
  | addVariables _ => .addCols
  | warmStart _ => .setSolution
  | setOptions _ => .setOption
  | option _ => .getOption
  | reset => .clearSolver

def perform [Engine σ] (s : Session σ) : ShortCall → Answer σ (Option OptionValue)
  | addConstraints rows => (s.addConstraints rows).mapValue fun _ => none
  | addVariables columns => (s.addVariables columns).mapValue fun _ => none
  | warmStart start => (s.warmStart start).mapValue fun _ => none
  | setOptions options => (s.setOptions options).mapValue fun _ => none
  | option name => (s.option name).mapValue some
  | reset => s.reset.mapValue fun _ => none

def busy (c : ShortCall) : Failure :=
  .native c.method "solver is busy with a cancelled blocking call"

end ShortCall

structure Job where
  id : Nat
  call : LongCall

/-- What the client of a job sees of its end: a worker that is cut short is a failure. -/
def Job.result (j : Job) :
    Outcome Failure (Option ModelStatus) → Except Failure (Option ModelStatus)
  | .ok status => .ok status
  | .failed cause => .error cause
  | .crashed => .error (.native j.call.method "blocking task failed")

structure Pool (σ : Type) where
  session : Session σ
  waiting : List Job
  running : Option Job
  next : Nat
  awaited : Option Nat

inductive PoolStep where
  | dispatch (call : LongCall)
  | start (id : Nat)
  | finish
  | abandon
  | short (call : ShortCall)

structure PoolReport (σ : Type) where
  pool : Pool σ
  events : List Event
  ended : Option (Nat × Except Failure (Option ModelStatus))
  answered : Option (Outcome Failure (Option OptionValue))

namespace Pool

def idle (s : Session σ) : Pool σ := ⟨s,[],none,0,none⟩

def quietly (p : Pool σ) (events : List Event) : PoolReport σ := ⟨p,events,none,none⟩

/-- One step, if it is possible. A client that awaits a call can do nothing but abandon it. -/
def step [Engine σ] (p : Pool σ) : PoolStep → Option (PoolReport σ)
  | .dispatch call =>
    if p.awaited.isSome then none
    else
      let job : Job := ⟨p.next,call⟩
      let next : Pool σ := { p with
        waiting := p.waiting ++ [job], next := p.next+1, awaited := some job.id }
      some (next.quietly [.debug s!"Dispatching {call.method.name} to the blocking pool"])
  | .start id =>
    match p.running, p.waiting.find? (·.id = id) with
    | none, some job =>
      let next : Pool σ := { p with
        waiting := p.waiting.filter (·.id ≠ id), running := some job }
      some (next.quietly job.call.entry)
    | _, _ => none
  | .finish =>
    match p.running with
    | none => none
    | some job =>
      let a := job.call.perform p.session
      some {
        pool := { p with
          session := a.session
          running := none
          awaited := if p.awaited = some job.id then none else p.awaited }
        events := a.events.drop job.call.entry.length
        ended := some (job.id,job.result a.outcome)
        answered := none }
  | .abandon =>
    if p.awaited.isSome then
      let next : Pool σ := { p with awaited := none }
      some (next.quietly [])
    else none
  | .short call =>
    if p.awaited.isSome then none
    else if p.running.isSome then some ⟨p,[],none,some (.failed call.busy)⟩
    else
      let a := call.perform p.session
      some ⟨{ p with session := a.session },a.events,none,some a.outcome⟩

/-- The steps one after the other; the last results count, and all events. -/
def steps [Engine σ] (p : Pool σ) : List PoolStep → Option (PoolReport σ)
  | [] => some (p.quietly [])
  | a :: rest =>
    match p.step a with
    | none => none
    | some r =>
      match r.pool.steps rest with
      | none => none
      | some r' => some {
          pool := r'.pool
          events := r.events ++ r'.events
          ended := r'.ended.or r.ended
          answered := r'.answered.or r.answered }

def await [Engine σ] (p : Pool σ) (call : LongCall) : Option (PoolReport σ) :=
  p.steps [.dispatch call,.start p.next,.finish]

def startAndAbandon [Engine σ] (p : Pool σ) (call : LongCall) : Option (PoolReport σ) :=
  p.steps [.dispatch call,.start p.next,.abandon]

def reclaim (p : Pool σ) : Option (Session σ) :=
  if p.running.isNone && p.waiting.isEmpty then some p.session else none

end Pool
end SolverSession
