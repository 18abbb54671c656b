import SolverSession.Numeral
import SolverSession.Text.Invisible

/-!
# Engine options

Options are addressed by name, and each has a kind of value that it takes. An integer may be given
where a double is wanted; no other kind stands in for another. `OptionTable` holds values in the
order of their names and keeps one value for each name.
-/
namespace SolverSession

inductive OptionValue where
  | bool (b : Bool)
  | int (n : Int64)
  | double (x : Float)
  | text (s : String)
deriving BEq, DecidableEq

inductive OptionKind where
  | bool
  | int
  | double
  | text
deriving DecidableEq

def OptionKind.name : OptionKind → String
  | .bool => "bool"
  | .int => "int"
  | .double => "double"
  | .text => "string"

namespace OptionValue

def kind : OptionValue → OptionKind
  | .bool _ => .bool
  | .int _ => .int
  | .double _ => .double
  | .text _ => .text

/-- The value as one of the wanted kind: itself, or an integer as the nearest double. -/
def asKind (value : OptionValue) (wanted : OptionKind) : Option OptionValue :=
  match value, wanted with
  | .int n, .double => some (.double (Float.ofInt n.toInt))
  | value, wanted => if value.kind = wanted then some value else none

/-- Doubles are displayed without an exponent from 1e-4 up to 1e16. -/
def layout : Layout := ⟨-4,16,true,.up⟩

def displayChar (c : Char) : List Char :=
  if c = '"' then ['\\','"']
  else if c = '\\' then ['\\','\\']
  else if c = '\n' then ['\\','n']
  else if c = '\r' then ['\\','r']
  else if c = '\t' then ['\\','t']
  else if c = '\x00' then ['\\','0']
  else if Text.isInvisible c then ['\\','u','{'] ++ Nat.toDigits 16 c.toNat ++ ['}']
  else [c]

def display : OptionValue → String
  | .bool b => if b then "Bool(true)" else "Bool(false)"
  | .int n => s!"Int({n})"
  | .double x => "Double(" ++ layout.display x ++ ")"
  | .text s => "String(\"" ++ String.ofList (s.toList.flatMap displayChar) ++ "\")"

end OptionValue

namespace OptionTable

def insertEntry (name : String) (value : OptionValue) :
    List (String × OptionValue) → List (String × OptionValue)
  | [] => [(name,value)]
  | e :: rest =>
    if e.1 = name then (name,value) :: rest
    else if name < e.1 then (name,value) :: e :: rest
    else e :: insertEntry name value rest

theorem mem_insertEntry {name : String} {value : OptionValue}
    {entries : List (String × OptionValue)} {e : String × OptionValue}
    (h : e ∈ insertEntry name value entries) : e = (name,value) ∨ e ∈ entries := by
  induction entries with
  | nil => simpa [insertEntry] using h
  | cons head rest ih =>
    simp only [insertEntry] at h
    split at h
    · rcases List.mem_cons.mp h with h | h
      · exact .inl h
      · exact .inr (List.mem_cons_of_mem _ h)
    · split at h
      · exact List.mem_cons.mp h
      · rcases List.mem_cons.mp h with h | h
        · exact .inr (h ▸ List.mem_cons_self)
        · exact (ih h).imp_right (List.mem_cons_of_mem _)

theorem insertEntry_ordered (name : String) (value : OptionValue)
    {entries : List (String × OptionValue)} (h : entries.Pairwise (·.1 < ·.1)) :
    (insertEntry name value entries).Pairwise (·.1 < ·.1) := by
  induction entries with
  | nil => simp [insertEntry]
  | cons head rest ih =>
    obtain ⟨hhead,hrest⟩ := List.pairwise_cons.mp h
    simp only [insertEntry]
    split
    case isTrue heq => exact List.pairwise_cons.mpr ⟨fun e he => heq ▸ hhead e he,hrest⟩
    case isFalse hne =>
      split
      case isTrue hlt =>
        refine List.pairwise_cons.mpr ⟨fun e he => ?_,h⟩
        rcases List.mem_cons.mp he with rfl | he
        · exact hlt
        · exact Std.lt_trans hlt (hhead e he)
      case isFalse hnlt =>
        have hlt : head.1 < name := Std.lt_of_le_of_ne (Std.not_lt.mp hnlt) hne
        refine List.pairwise_cons.mpr ⟨fun e he => ?_,ih hrest⟩
        rcases mem_insertEntry he with rfl | he
        · exact hlt
        · exact hhead e he

end OptionTable

/-- Values by name, one for each name, in the order of the names. -/
structure OptionTable where
  entries : List (String × OptionValue)
  ordered : entries.Pairwise (·.1 < ·.1)
deriving DecidableEq

namespace OptionTable

def empty : OptionTable := ⟨[],.nil⟩

def insert (t : OptionTable) (name : String) (value : OptionValue) : OptionTable :=
  ⟨insertEntry name value t.entries,insertEntry_ordered name value t.ordered⟩

def get? (t : OptionTable) (name : String) : Option OptionValue := t.entries.lookup name

def ofList (entries : List (String × OptionValue)) : OptionTable :=
  entries.foldl (fun t e => t.insert e.1 e.2) empty

end OptionTable

end SolverSession
