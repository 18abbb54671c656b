import SolverSession.Diagnostics
import SolverSession.Failure
import SolverSession.Trace

/-!
# Engines

An engine is a type of states with the calls a session makes. A call that may change the state
answers with the state afterwards, whether it succeeded or not; a question leaves the state alone.
Nothing else is assumed, so what holds of sessions over every engine holds whatever an engine does.
-/
namespace SolverSession

structure Reply (σ : Type) where
  outcome : Outcome String Unit
  engine : σ
  log : List LogRecord

def Reply.ok {σ : Type} (engine : σ) : Reply σ := ⟨.ok (),engine,[]⟩

def Reply.failed {σ : Type} (message : String) (engine : σ) : Reply σ :=
  ⟨.failed message,engine,[]⟩

class Engine (σ : Type) where
  passModel : FlatModel Float → σ → Reply σ
  readModel : String → σ → Reply σ
  writeModel : String → σ → Reply σ
  writeSolution : String → ReportStyle → σ → Reply σ
  addRows : RowBatch Float → σ → Reply σ
  addCols : ColumnBatch Float → σ → Reply σ
  run : σ → Reply σ
  /-- Takes a starting point; lists that are absent are left alone. -/
  setSolution : WarmStart → σ → Reply σ
  setOption : String → OptionValue → σ → Reply σ
  clearSolver : σ → Reply σ
  optionKind : String → σ → Except String OptionKind
  getOption : String → σ → Except String OptionValue
  modelStatus : σ → Int32
  info : σ → Diagnostics
  solution : σ → DenseSolution
  /-- What is logged when the solution is read. -/
  reading : σ → List LogRecord
  numCols : σ → Nat
  numRows : σ → Nat
  version : σ → String
  closing : σ → List LogRecord

end SolverSession
