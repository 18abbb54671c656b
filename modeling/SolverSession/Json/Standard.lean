import SolverSession.Json.Codec
import SolverSession.Json.Parser
import SolverSession.Json.Scaling

/-!
# Codecs that run

Of an object the members with other names than the fields are ignored, and a field may not be given
twice; an array gives the fields in their order and may be shorter than the list of them but not
longer. Codecs of this kind differ in how they spell doubles and read them.
-/
namespace SolverSession.Json

def accept (names : List String) (r : Record) : Text × Value → Option Record
  | (none,_) => none
  | (some name,v) =>
    if name ∈ names then if (r name).isSome then none else some (r.give name v) else some r

def codec (spell : Float → Numeral) (double? : Numeral → Option Float) : Codec where
  write := Value.write
  read? := Value.read?
  ofFloat x := if x.isFinite then .number (spell x) else .null
  ofInt n := .number (.ofInt n)
  bool?
    | .bool b => some b
    | _ => none
  float?
    | .number n => double? n
    | _ => none
  int? low high
    | .number n => n.toInt?.filter fun k => low ≤ k ∧ k < high
    | _ => none
  string?
    | .text s => s
    | _ => none
  list? decode
    | .array items => items.mapM decode
    | _ => none
  option? decode
    | .null => some none
    | v => (decode v).map some
  record? names
    | .object members => members.foldlM (accept names) .nothing
    | .array items =>
      if items.length ≤ names.length then some fun name => (names.zip items).lookup name else none
    | _ => none
  unit?
    | .text s => s
    | .object [(some name,.null)] => some name
    | _ => none
  data? name
    | .object [(some key,v)] => if key = name then some v else none
    | _ => none
  untagged? decoders v := decoders.findSome? fun decode => decode v

/-- Doubles from 1e-5 up to 1e16 are written out. -/
def floatLayout : Layout := ⟨-5,16,true,.toEven⟩

def standard : Codec := codec (.ofFloat floatLayout) floatOf?

end SolverSession.Json
