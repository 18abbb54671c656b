import SolverSession.Json.Value

/-!
# JSON codecs

A codec writes JSON texts and reads them, and decodes values as scalars, lists, records and
alternatives. What it makes of a record are the fields that are given, however they are given;
whether a field has to be there, and what it stands for where it is not, is up to the type that
reads the record. What the types of the domain are in JSON is the same for every codec.
-/
namespace SolverSession.Json

variable {β : Type}

abbrev Record := String → Option Value

namespace Record

def nothing : Record := fun _ => none

def give (r : Record) (name : String) (v : Value) : Record :=
  fun key => if key = name then some v else r key

def required (r : Record) (name : String) (decode : Decoder β) : Option β :=
  match r name with
  | some v => decode v
  | none => none

def optional (r : Record) (name : String) (decode : Decoder β) (default : β) : Option β :=
  match r name with
  | some v => decode v
  | none => some default

end Record

structure Codec where
  write : Value → String
  /-- The value of a text, with nothing but space around it. -/
  read? : String → Option Value
  ofFloat : Float → Value
  ofInt : Int → Value
  bool? : Decoder Bool
  float? : Decoder Float
  /-- A whole number from `low` up to, and not including, `high`. -/
  int? (low high : Int) : Decoder Int
  string? : Decoder String
  list? {β : Type} (decode : Decoder β) : Decoder (List β)
  option? {β : Type} (decode : Decoder β) : Decoder (Option β)
  /-- The fields of a record that has fields of these names. -/
  record? (names : List String) : Decoder Record
  /-- The name of an alternative without data. -/
  unit? : Decoder String
  /-- The data of the alternative of this name. -/
  data? (name : String) : Decoder Value
  untagged? {β : Type} (decoders : List (Decoder β)) : Decoder β

namespace Codec

variable (lib : Codec)

def index? : Decoder Nat := fun v => (lib.int? 0 0x10000000000000000 v).map Int.toNat

def int32? : Decoder Int32 := fun v => (lib.int? (-0x80000000) 0x80000000 v).map Int32.ofInt

def int64? : Decoder Int64 := fun v =>
  (lib.int? (-0x8000000000000000) 0x8000000000000000 v).map Int64.ofInt

def toText (encode : β → Value) (x : β) : String := lib.write (encode x)

def ofText? (decode : Decoder β) (text : String) : Option β := (lib.read? text).bind decode

end Codec

def ofString (s : String) : Value := .text (some s)

def ofList (encode : β → Value) (xs : List β) : Value := .array (xs.map encode)

def ofMembers (members : List (String × Option Value)) : Value :=
  .object (members.filterMap fun (name,v) => v.map fun v => (some name,v))

end SolverSession.Json
