import SolverSession.FlatModel
import SolverSession.Options
import SolverSession.Solution

/-!
# Traces

What can be seen of a session from outside, in the order in which it happens: the calls that reach
the engine, with their arguments, and the records written to the log.
-/
namespace SolverSession

inductive ReportStyle where
  | raw
  | pretty
deriving DecidableEq

inductive EngineCall where
  | passModel (model : FlatModel Float)
  | readModel (path : String)
  | writeModel (path : String)
  | writeSolution (path : String) (style : ReportStyle)
  | addRows (batch : RowBatch Float)
  | addCols (batch : ColumnBatch Float)
  | run
  | setSolution (start : WarmStart)
  | optionKind (name : String)
  | setOption (name : String) (value : OptionValue)
  | getOption (name : String)
  | clearSolver
deriving DecidableEq

inductive LogLevel where
  | debug
  | info
  | warn
deriving DecidableEq

def LogLevel.name : LogLevel → String
  | .debug => "DEBUG"
  | .info => "INFO"
  | .warn => "WARN"

structure LogRecord where
  level : LogLevel
  text : String
deriving DecidableEq

def LogRecord.line (r : LogRecord) : String := s!"{r.level.name} {r.text}"

inductive Event where
  | call (c : EngineCall)
  | log (r : LogRecord)
deriving DecidableEq

namespace Event

def debug (text : String) : Event := .log ⟨.debug,text⟩

def info (text : String) : Event := .log ⟨.info,text⟩

def warn (text : String) : Event := .log ⟨.warn,text⟩

def call? : Event → Option EngineCall
  | .call c => some c
  | .log _ => none

def log? : Event → Option LogRecord
  | .call _ => none
  | .log r => some r

end Event

def calls (events : List Event) : List EngineCall := events.filterMap Event.call?

def records (events : List Event) : List LogRecord := events.filterMap Event.log?

end SolverSession
