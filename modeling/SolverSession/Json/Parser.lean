import SolverSession.Json.Lexer

/-!
# Reading JSON values

A machine with a stack takes one token at a time. The stack holds the arrays and objects that are
open, so a value may be nested to any depth.
-/
namespace SolverSession.Json

/-- An array or object that is not closed yet; what it holds so far is kept last one first. -/
inductive Frame where
  | array (done : List Value)
  | object (done : List (Text × Value))
  /-- An object that waits for the value of a member. -/
  | member (done : List (Text × Value)) (name : Text)

inductive Awaiting where
  | value
  | itemOrEnd
  | memberOrEnd
  | memberName
  | colon
  | separator
  | nothing (v : Value)

structure Machine where
  stack : List Frame
  awaiting : Awaiting

namespace Machine

def start : Machine := ⟨[],.value⟩

def complete (v : Value) : List Frame → Option Machine
  | [] => some ⟨[],.nothing v⟩
  | .array done :: stack => some ⟨.array (v :: done) :: stack,.separator⟩
  | .member done name :: stack => some ⟨.object ((name,v) :: done) :: stack,.separator⟩
  | .object _ :: _ => none

def begin? (stack : List Frame) : Token → Option Machine
  | .beginArray => some ⟨.array [] :: stack,.itemOrEnd⟩
  | .beginObject => some ⟨.object [] :: stack,.memberOrEnd⟩
  | .null => complete .null stack
  | .bool b => complete (.bool b) stack
  | .number n => complete (.number n) stack
  | .text s => complete (.text s) stack
  | _ => none

def end? : List Frame → Token → Option Machine
  | .array done :: stack, .endArray => complete (.array done.reverse) stack
  | .object done :: stack, .endObject => complete (.object done.reverse) stack
  | _, _ => none

def name? : List Frame → Token → Option Machine
  | .object done :: stack, .text name => some ⟨.member done name :: stack,.colon⟩
  | _, _ => none

def step (m : Machine) (t : Token) : Option Machine :=
  match m.awaiting with
  | .value => begin? m.stack t
  | .itemOrEnd => if t = .endArray then end? m.stack t else begin? m.stack t
  | .memberOrEnd => if t = .endObject then end? m.stack t else name? m.stack t
  | .memberName => name? m.stack t
  | .colon => if t = .colon then some ⟨m.stack,.value⟩ else none
  | .separator =>
    if t = .comma then
      match m.stack with
      | .array _ :: _ => some ⟨m.stack,.value⟩
      | .object _ :: _ => some ⟨m.stack,.memberName⟩
      | _ => none
    else end? m.stack t
  | .nothing _ => none

def run (m : Machine) : List Token → Option Machine
  | [] => some m
  | t :: ts => match m.step t with
    | some m => m.run ts
    | none => none

def value? (m : Machine) : Option Value :=
  match m.awaiting with
  | .nothing v => some v
  | _ => none

end Machine

def Value.read? (text : String) : Option Value := do
  let tokens ← tokenize text.toList
  let machine ← Machine.start.run tokens
  machine.value?

end SolverSession.Json
