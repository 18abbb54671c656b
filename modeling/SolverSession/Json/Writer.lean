import SolverSession.Json.Value

/-!
# Writing JSON values

A value is written as a list of tokens without space between them.
-/
namespace SolverSession.Json

inductive Token where
  | beginArray
  | endArray
  | beginObject
  | endObject
  | colon
  | comma
  | null
  | bool (b : Bool)
  | number (n : Numeral)
  | text (s : Text)
deriving DecidableEq

mutual

/-- The tokens of a value, in front of `rest`. -/
def Value.emit : Value → List Token → List Token
  | .null, rest => .null :: rest
  | .bool b, rest => .bool b :: rest
  | .number n, rest => .number n :: rest
  | .text s, rest => .text s :: rest
  | .array items, rest => .beginArray :: emitItems items (.endArray :: rest)
  | .object members, rest => .beginObject :: emitMembers members (.endObject :: rest)

def emitItems : List Value → List Token → List Token
  | [], rest => rest
  | v :: vs, rest => v.emit (emitMoreItems vs rest)

def emitMoreItems : List Value → List Token → List Token
  | [], rest => rest
  | v :: vs, rest => .comma :: v.emit (emitMoreItems vs rest)

def emitMembers : List (Text × Value) → List Token → List Token
  | [], rest => rest
  | (name,v) :: ms, rest => .text name :: .colon :: v.emit (emitMoreMembers ms rest)

def emitMoreMembers : List (Text × Value) → List Token → List Token
  | [], rest => rest
  | (name,v) :: ms, rest => .comma :: .text name :: .colon :: v.emit (emitMoreMembers ms rest)

end

def hexDigit (n : Nat) : Char := Nat.digitChar n

def escape (c : Char) : List Char :=
  if c = '"' then ['\\','"']
  else if c = '\\' then ['\\','\\']
  else if c = '\n' then ['\\','n']
  else if c = '\r' then ['\\','r']
  else if c = '\t' then ['\\','t']
  else if c = '\x08' then ['\\','b']
  else if c = '\x0c' then ['\\','f']
  else if c.toNat < 32 then
    ['\\','u','0','0',hexDigit (c.toNat/16),hexDigit (c.toNat%16)]
  else [c]

/-- A text in quotes. A text without characters is written as the first lone surrogate. -/
def quote : Text → List Char
  | some s => '"' :: s.toList.flatMap escape ++ ['"']
  | none => "\"\\ud800\"".toList

def Token.spell : Token → List Char
  | .beginArray => ['[']
  | .endArray => [']']
  | .beginObject => ['{']
  | .endObject => ['}']
  | .colon => [':']
  | .comma => [',']
  | .null => "null".toList
  | .bool true => "true".toList
  | .bool false => "false".toList
  | .number n => n.text true
  | .text s => quote s

def render (ts : List Token) : List Char := ts.flatMap Token.spell

def Value.write (v : Value) : String := String.ofList (render (v.emit []))

end SolverSession.Json
