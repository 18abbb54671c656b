import SolverSession.Numeral

/-!
# JSON values

A text may spell a lone surrogate with an escape. It is then grammatical and stands for no
character string; such a text is kept as `none`, so that it can be skipped where it is not wanted
and refused where it is. Members of an object keep their order and may repeat a name.
-/
namespace SolverSession.Json

/-- The characters of a JSON text, unless it spells a lone surrogate. -/
abbrev Text := Option String

inductive Value where
  | null
  | bool (b : Bool)
  | number (n : Numeral)
  | text (s : Text)
  | array (items : List Value)
  | object (members : List (Text × Value))

abbrev Decoder (β : Type) := Value → Option β

end SolverSession.Json
