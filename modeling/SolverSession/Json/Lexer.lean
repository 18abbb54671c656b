import SolverSession.Json.Writer

/-!
# Reading JSON tokens

White space separates tokens and is otherwise skipped. Numbers follow the strict grammar: no leading
zeros, digits on both sides of a point, digits in an exponent. Texts hold no raw control characters;
two `\u` escapes that form a surrogate pair are one character, and any other surrogate leaves the
text without characters.
-/
namespace SolverSession.Json

open Numeral (takeDigits)

def isSpace (c : Char) : Bool := c = ' ' || c = '\t' || c = '\n' || c = '\r'

/-- The digits before the point: a zero alone, or digits that do not start with one. -/
def scanWhole : List Char → Option (Nat × List Char)
  | '0' :: rest => some (0,rest)
  | cs => match takeDigits cs with
    | ([],_) => none
    | (ds,rest) => some (Numeral.ofDigits 0 ds,rest)

def scanFraction : List Char → Option (List Nat × List Char)
  | '.' :: cs => match takeDigits cs with
    | ([],_) => none
    | (ds,rest) => some (ds,rest)
  | cs => some ([],cs)

def scanExponentDigits (negative : Bool) (cs : List Char) : Option (Option Int × List Char) :=
  match takeDigits cs with
  | ([],_) => none
  | (ds,rest) =>
    let size : Int := Numeral.ofDigits 0 ds
    some (some (if negative then -size else size),rest)

def scanExponent : List Char → Option (Option Int × List Char)
  | c :: cs =>
    if c = 'e' || c = 'E' then
      match cs with
      | '-' :: cs => scanExponentDigits true cs
      | '+' :: cs => scanExponentDigits false cs
      | cs => scanExponentDigits false cs
    else some (none,c :: cs)
  | [] => some (none,[])

def scanUnsigned (negative : Bool) (cs : List Char) : Option (Numeral × List Char) := do
  let (whole,cs) ← scanWhole cs
  let (fraction,cs) ← scanFraction cs
  let (exponent,cs) ← scanExponent cs
  return (⟨negative,whole,fraction,exponent⟩,cs)

structure Scan where
  /-- The characters so far, last one first. -/
  chars : List Char
  /-- A high surrogate that waits for a low one. -/
  high : Option Nat
  /-- No surrogate was left alone. -/
  sound : Bool

namespace Scan

def start : Scan := ⟨[],none,true⟩

def char (s : Scan) (c : Char) : Scan := ⟨c :: s.chars,none,s.sound && s.high.isNone⟩

def unit (s : Scan) (u : Nat) : Scan :=
  if 0xd800 ≤ u ∧ u < 0xdc00 then ⟨s.chars,some u,s.sound && s.high.isNone⟩
  else if 0xdc00 ≤ u ∧ u < 0xe000 then
    match s.high with
    | some h => ⟨Char.ofNat (0x10000+(h-0xd800)*0x400+(u-0xdc00)) :: s.chars,none,s.sound⟩
    | none => { s with sound := false }
  else s.char (Char.ofNat u)

def finish (s : Scan) : Text :=
  if s.sound && s.high.isNone then some (String.ofList s.chars.reverse) else none

end Scan

def hexValue? (c : Char) : Option Nat :=
  if '0' ≤ c ∧ c ≤ '9' then some (c.toNat-48)
  else if 'a' ≤ c ∧ c ≤ 'f' then some (c.toNat-87)
  else if 'A' ≤ c ∧ c ≤ 'F' then some (c.toNat-55)
  else none

def unit? (a b c d : Char) : Option Nat := do
  return (((← hexValue? a)*16+(← hexValue? b))*16+(← hexValue? c))*16+(← hexValue? d)

def unescape? (c : Char) : Option Char :=
  if c = '"' ∨ c = '\\' ∨ c = '/' then some c
  else if c = 'n' then some '\n'
  else if c = 'r' then some '\r'
  else if c = 't' then some '\t'
  else if c = 'b' then some '\x08'
  else if c = 'f' then some '\x0c'
  else none

def scanText (s : Scan) : List Char → Option (Text × List Char)
  | '"' :: rest => some (s.finish,rest)
  | '\\' :: 'u' :: a :: b :: c :: d :: rest =>
    match unit? a b c d with
    | some u => scanText (s.unit u) rest
    | none => none
  | '\\' :: c :: rest =>
    match unescape? c with
    | some c => scanText (s.char c) rest
    | none => none
  | c :: rest => if c.toNat < 32 then none else scanText (s.char c) rest
  | [] => none

def scanToken : List Char → Option (Token × List Char)
  | '[' :: cs => some (.beginArray,cs)
  | ']' :: cs => some (.endArray,cs)
  | '{' :: cs => some (.beginObject,cs)
  | '}' :: cs => some (.endObject,cs)
  | ':' :: cs => some (.colon,cs)
  | ',' :: cs => some (.comma,cs)
  | 'n' :: 'u' :: 'l' :: 'l' :: cs => some (.null,cs)
  | 't' :: 'r' :: 'u' :: 'e' :: cs => some (.bool true,cs)
  | 'f' :: 'a' :: 'l' :: 's' :: 'e' :: cs => some (.bool false,cs)
  | '"' :: cs => (scanText .start cs).map fun (s,rest) => (.text s,rest)
  | '-' :: cs => (scanUnsigned true cs).map fun (n,rest) => (.number n,rest)
  | cs => (scanUnsigned false cs).map fun (n,rest) => (.number n,rest)

/-- Reads at most `fuel` tokens or spaces; `done` holds the tokens so far, last one first. -/
def scanTokens : Nat → List Token → List Char → Option (List Token)
  | _, done, [] => some done.reverse
  | 0, _, _ :: _ => none
  | fuel+1, done, c :: cs =>
    if isSpace c then scanTokens fuel done cs
    else match scanToken (c :: cs) with
      | some (t,rest) => scanTokens fuel (t :: done) rest
      | none => none

def tokenize (cs : List Char) : Option (List Token) := scanTokens cs.length [] cs

end SolverSession.Json
