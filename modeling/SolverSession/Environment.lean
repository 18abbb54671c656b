import SolverSession.Numeral
import SolverSession.SessionConfig
import SolverSession.Text.Blank

/-!
# Configuration from the environment

Six variables are read. Before that a file of settings is loaded into the environment by a library;
nothing is fixed here about how it reads the file. Numbers and truth values are trimmed and have to
be written out in full; one that cannot be read is as good as absent. Texts are taken as they are.
-/
namespace SolverSession

abbrev Variables := String → Option String

structure Dotenv where
  /-- The settings of a file in their order; their values may refer to variables. -/
  settings (vars : Variables) (file : String) : List (String × String)
  /-- The variables after the file is loaded, unless this is cut short. -/
  load? (vars : Variables) (file : String) : Option Variables

structure Environment where
  vars : Variables
  file : String

namespace Environment

open Numeral (takeDigits)

def readBool? (cs : List Char) : Option Bool :=
  if cs = "true".toList then some true else if cs = "false".toList then some false else none

/-- A sign, if there is one, and what follows; the first part tells whether it is a minus. -/
def takeSign : List Char → Bool × List Char
  | '-' :: cs => (true,cs)
  | '+' :: cs => (false,cs)
  | cs => (false,cs)

def readInt? (cs : List Char) : Option Int64 :=
  let (negative,cs) := takeSign cs
  match takeDigits cs with
  | (d :: ds,[]) =>
    let size : Int := Numeral.ofDigits 0 (d :: ds)
    let n := if negative then -size else size
    if -0x8000000000000000 ≤ n ∧ n < 0x8000000000000000 then some (Int64.ofInt n) else none
  | _ => none

def readExponent? : List Char → Option Int
  | [] => some 0
  | c :: cs =>
    if c = 'e' ∨ c = 'E' then
      let (negative,cs) := takeSign cs
      match takeDigits cs with
      | (d :: ds,[]) =>
        let size : Int := Numeral.ofDigits 0 (d :: ds)
        some (if negative then -size else size)
      | _ => none
    else none

def readSize? (cs : List Char) : Option Decimal := do
  let (whole,cs) := takeDigits cs
  let (fraction,cs) := match cs with
    | '.' :: cs => takeDigits cs
    | cs => ([],cs)
  if whole.isEmpty && fraction.isEmpty then none
  let exponent ← readExponent? cs
  return ⟨Numeral.ofDigits 0 (whole ++ fraction),exponent-fraction.length⟩

def lower (c : Char) : Char := if 'A' ≤ c ∧ c ≤ 'Z' then Char.ofNat (c.toNat+32) else c

/-- An optional sign and a number, or one of the words for infinity and for no number in any case.
A number is rounded to the nearest double, infinity among them. -/
def readDouble? (cs : List Char) : Option Float :=
  let (negative,cs) := takeSign cs
  let word := cs.map lower
  let size :=
    if word = "inf".toList ∨ word = "infinity".toList then some (Float.ofBits 0x7ff0000000000000)
    else if word = "nan".toList then some (Float.ofBits 0x7ff8000000000000)
    else (readSize? cs).map Decimal.toFloat
  if negative then size.map Float.neg else size

def parse? {β : Type} (vars : Variables) (name : String) (read : List Char → Option β) :
    Option β :=
  (vars name).bind fun value => read (Text.trim value.toList)

end Environment

namespace SessionConfig

def ofVariables (vars : Variables) : SessionConfig :=
  let limit := Environment.parse? vars "HIGHS_TIME_LIMIT" Environment.readDouble?
  let threads := Environment.parse? vars "HIGHS_THREADS" Environment.readInt?
  let options : List (String × OptionValue) :=
    (limit.map fun x => ("time_limit",.double x)).toList
    ++ (threads.map fun n => ("threads",.int n)).toList
    ++ ((vars "HIGHS_PRESOLVE").map fun s => ("presolve",.text s)).toList
  { outputFlag := (Environment.parse? vars "HIGHS_OUTPUT_FLAG" Environment.readBool?).getD false
    logToConsole := (Environment.parse? vars "HIGHS_LOG_TO_CONSOLE" Environment.readBool?).getD false
    logFile := vars "HIGHS_LOG_FILE"
    options := .ofList options }

def ofEnvironment? (d : Dotenv) (e : Environment) : Option SessionConfig :=
  (d.load? e.vars e.file).map ofVariables

end SessionConfig
end SolverSession
