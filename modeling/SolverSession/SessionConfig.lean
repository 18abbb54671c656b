import SolverSession.Options

/-!
# Configuration of a session

The log sink comes first: nothing is written to the terminal unless both of its flags are on. Then
follow the options that were asked for, by name. An option that names a part of the log sink again
comes after it and so has the last word.
-/
namespace SolverSession

structure SessionConfig where
  outputFlag : Bool
  logToConsole : Bool
  logFile : Option String
  options : OptionTable
deriving DecidableEq

namespace SessionConfig

/-- A quiet session with the options of its engine. -/
def quiet : SessionConfig := ⟨false,false,none,.empty⟩

def setOption (c : SessionConfig) (name : String) (value : OptionValue) : SessionConfig :=
  { c with options := c.options.insert name value }

/-- The options in the order in which an engine is given them. -/
def settings (c : SessionConfig) : List (String × OptionValue) :=
  [("output_flag",.bool c.outputFlag),("log_to_console",.bool c.logToConsole)]
    ++ (match c.logFile with
      | none => []
      | some path => [("log_file",.text path)])
    ++ c.options.entries

end SessionConfig

inductive ConfigCall where
  | outputFlag (on : Bool)
  | logToConsole (on : Bool)
  | logFile (path : String)
  | option (name : String) (value : OptionValue)

def SessionConfig.apply (c : SessionConfig) : ConfigCall → SessionConfig
  | .outputFlag on => { c with outputFlag := on }
  | .logToConsole on => { c with logToConsole := on }
  | .logFile path => { c with logFile := some path }
  | .option name value => c.setOption name value

def SessionConfig.ofCalls (calls : List ConfigCall) : SessionConfig := calls.foldl apply quiet

end SolverSession
