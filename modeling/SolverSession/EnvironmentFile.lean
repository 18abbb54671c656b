import SolverSession.Environment

/-!
# Environment files

A file is read line by line: blank lines, comments, and settings `KEY=VALUE` or `export KEY=VALUE`.
A value may be quoted, escape characters and refer to variables; a blank ends it, and only a comment
may follow. The first line that cannot be read ends the file. A setting does not replace a value
that its variable has, so the first one counts.
-/
namespace SolverSession

def Variables.add (vars : Variables) (name value : String) : Variables :=
  fun key => if key = name then (vars key).or (some value) else vars key

namespace EnvironmentFile

inductive Quote where
  | none
  /-- Nothing up to the next such quote has a meaning. -/
  | single
  | double
deriving DecidableEq

structure Scan where
  /-- The characters so far, last one first. -/
  chars : List Char
  quote : Quote
  escaped : Bool
  ended : Bool
  /-- The name of the variable that is referred to, last character first; in braces or not. -/
  reference : Option (Bool × List Char)

namespace Scan

def start : Scan := ⟨[],.none,false,false,none⟩

def char (s : Scan) (c : Char) : Scan := { s with chars := c :: s.chars }

def resolve (vars : Variables) (s : Scan) : Scan :=
  match s.reference with
  | none => s
  | some (_,name) =>
    let value := ((vars (String.ofList name.reverse)).getD "").toList
    { s with chars := value.reverse ++ s.chars, reference := none }

def refer (vars : Variables) (s : Scan) (braced : Bool) (name : List Char) (c : Char) : Scan :=
  if c.isAlphanum then { s with reference := some (braced,c :: name) }
  else if braced then
    if c = '\x7d' then s.resolve vars else { s with reference := some (true,c :: name) }
  else if c = '\x7b' ∧ name = [] then { s with reference := some (true,[]) }
  else if c = '$' then { s.resolve vars with reference := some (false,[]) }
  else (s.resolve vars).char c

def step? (vars : Variables) (s : Scan) (c : Char) : Option Scan :=
  if s.escaped then
    if c ∈ ['\\','\'','"','$',' '] then some { s.char c with escaped := false }
    else if c = 'n' then some { s.char '\n' with escaped := false }
    else none
  else if s.quote = .single then
    if c = '\'' then some { s with quote := .none } else some (s.char c)
  else match s.reference with
    | some (braced,name) => some (s.refer vars braced name c)
    | none =>
      if c = '$' then some { s with reference := some (false,[]) }
      else if c = '\\' then some { s with escaped := true }
      else if s.quote = .double then
        if c = '"' then some { s with quote := .none } else some (s.char c)
      else if c = '\'' then some { s with quote := .single }
      else if c = '"' then some { s with quote := .double }
      else if c = ' ' ∨ c = '\t' then some { s with ended := true }
      else some (s.char c)

def finish? (vars : Variables) (s : Scan) : Option String :=
  if s.quote ≠ .none ∨ (s.reference.any (·.1)) then none
  else some (String.ofList (s.resolve vars).chars.reverse)

end Scan

def scanValue (vars : Variables) (s : Scan) : List Char → Option String
  | [] => s.finish? vars
  | c :: cs =>
    if s.ended then
      if c = ' ' ∨ c = '\t' then scanValue vars s cs
      else if c = '#' then s.finish? vars
      else none
    else match s.step? vars c with
      | some s => scanValue vars s cs
      | none => none

def startsKey (c : Char) : Bool := c.isAlpha || c = '_'

def inKey (c : Char) : Bool := startsKey c || c.isDigit || c = '.'

def takeKey? (cs : List Char) : Option (String × List Char) :=
  if cs.head?.any startsKey then
    let (key,rest) := cs.span inKey
    some (String.ofList key,rest.dropWhile Text.isBlank)
  else none

def takeValue? (vars : Variables) : List Char → Option String
  | '=' :: cs =>
    match cs.dropWhile Text.isBlank with
    | [] => some ""
    | '#' :: _ => some ""
    | cs => scanValue vars .start cs
  | _ => none

inductive Line where
  | blank
  | setting (name value : String)
  | unreadable

def setting (vars : Variables) (name : String) (behind : List Char) : Line :=
  match takeValue? vars behind with
  | some value => .setting name value
  | none => .unreadable

/-- The word `export` is skipped unless it is itself the name. -/
def readLine (vars : Variables) (line : List Char) : Line :=
  match Text.trim line with
  | [] => .blank
  | '#' :: _ => .blank
  | cs => match takeKey? cs with
    | none => .unreadable
    | some (name,behind) =>
      if name = "export" ∧ behind.head? ≠ some '=' then
        match takeKey? behind with
        | none => .unreadable
        | some (name,behind) => setting vars name behind
      else setting vars name behind

def splitLines (current : List Char) : List Char → List (List Char)
  | [] => [current.reverse]
  | '\n' :: rest => current.reverse :: splitLines [] rest
  | c :: rest => splitLines (c :: current) rest

def settings (vars : Variables) : List (List Char) → List (String × String)
  | [] => []
  | line :: rest => match readLine vars line with
    | .blank => settings vars rest
    | .setting name value => (name,value) :: settings (vars.add name value) rest
    | .unreadable => []

/-- A value with a null character cannot be set. -/
def load? (vars : Variables) : List (List Char) → Option Variables
  | [] => some vars
  | line :: rest => match readLine vars line with
    | .blank => load? vars rest
    | .setting name value =>
      if vars name = none ∧ '\x00' ∈ value.toList then none
      else load? (vars.add name value) rest
    | .unreadable => some vars

end EnvironmentFile

def Dotenv.standard : Dotenv where
  settings vars file := EnvironmentFile.settings vars (EnvironmentFile.splitLines [] file.toList)
  load? vars file := EnvironmentFile.load? vars (EnvironmentFile.splitLines [] file.toList)

end SolverSession
