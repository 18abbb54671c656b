import Mathlib.Data.List.Induction
import Mathlib.Data.List.Nodup
import SolverSession.Json.Codec
import SolverSession.Proofs.Lookup

/-!
# Laws of JSON codecs

What is relied on of a codec. The members of an object are taken one after another: one that is not
a field is passed over, one that is a field is given to the record, and nothing is given twice. From
this follows which members an object may have, and that their order does not matter.
-/
namespace SolverSession

def Numeral.IsWhole (n : Numeral) : Prop := n.fraction = [] ∧ n.exponent = none

namespace Json

/-- How values are decoded. -/
structure Codec.Decodes (lib : Codec) : Prop where
  bool?_eq_some_iff {v : Value} {b : Bool} : lib.bool? v = some b ↔ v = .bool b
  string?_eq_some_iff {v : Value} {s : String} : lib.string? v = some s ↔ v = .text (some s)
  float?_number {v : Value} {x : Float} : lib.float? v = some x → ∃ n, v = .number n
  /-- A double may be written as a whole number. -/
  float?_zero : lib.float? (lib.ofInt 0) = some 0
  int?_number {low high k : Int} {v : Value} : lib.int? low high v = some k →
    ∃ n : Numeral, v = .number n ∧ n.IsWhole
  list?_array {β : Type} (decode : Decoder β) (items : List Value) :
    lib.list? decode (.array items) = items.mapM decode
  option?_null {β : Type} (decode : Decoder β) : lib.option? decode .null = some none
  option?_value {β : Type} (decode : Decoder β) {v : Value} : v ≠ .null →
    lib.option? decode v = (decode v).map some
  record?_nil (names : List String) : lib.record? names (.object []) = some .nothing
  /-- A text without characters is no name. -/
  record?_unspelled (names : List String) (members : List (Text × Value)) (v : Value) :
    lib.record? names (.object (members ++ [(none,v)])) = none
  record?_other {names : List String} {name : String} (members : List (Text × Value)) (v : Value) :
    name ∉ names → lib.record? names (.object (members ++ [(some name,v)])) =
      lib.record? names (.object members)
  record?_field {names : List String} {name : String} (members : List (Text × Value)) (v : Value) :
    name ∈ names → lib.record? names (.object (members ++ [(some name,v)])) =
      (lib.record? names (.object members)).bind fun r =>
        if (r name).isSome then none else some (r.give name v)
  /-- An array gives the fields in their order. -/
  record?_array {names : List String} {items : List Value} : items.length = names.length →
    lib.record? names (.array items) = some fun name => (names.zip items).lookup name
  unit?_text (s : String) : lib.unit? (.text (some s)) = some s
  data?_text (name : String) (t : Text) : lib.data? name (.text t) = none
  data?_member (name : String) (v : Value) : lib.data? name (.object [(some name,v)]) = some v
  untagged?_nil {β : Type} (v : Value) : lib.untagged? ([] : List (Decoder β)) v = none
  untagged?_cons {β : Type} (decode : Decoder β) (rest : List (Decoder β)) (v : Value) :
    lib.untagged? (decode :: rest) v = (decode v).or (lib.untagged? rest v)

/-- A value that is put together from what the codec makes of numbers, nested at most so deep. -/
inductive Codec.Written (lib : Codec) : Nat → Value → Prop where
  | null {depth : Nat} : Written lib depth .null
  | bool {depth : Nat} (b : Bool) : Written lib depth (.bool b)
  | float {depth : Nat} (x : Float) : Written lib depth (lib.ofFloat x)
  | int {depth : Nat} {n : Int} (hlow : -0x8000000000000000 ≤ n) (hhigh : n < 0x10000000000000000) :
      Written lib depth (lib.ofInt n)
  | text {depth : Nat} (s : String) : Written lib depth (.text (some s))
  | array {depth : Nat} {items : List Value} (h : ∀ v ∈ items, Written lib depth v) :
      Written lib (depth+1) (.array items)
  | object {depth : Nat} {members : List (Text × Value)}
      (hnames : ∀ e ∈ members, e.1 ≠ none) (h : ∀ e ∈ members, Written lib depth e.2) :
      Written lib (depth+1) (.object members)

/-- How values are decoded and written. Values that are nested too deep may be refused. -/
structure Codec.Lawful (lib : Codec) : Prop extends lib.Decodes where
  int?_ofInt {low high n : Int} : -0x8000000000000000 ≤ low → high ≤ 0x10000000000000000 →
    low ≤ n → n < high → lib.int? low high (lib.ofInt n) = some n
  ofFloat_finite {x : Float} : x.isFinite = true → ∃ n, lib.ofFloat x = .number n ∧ ¬n.IsWhole
  ofFloat_other {x : Float} : x.isFinite = false → lib.ofFloat x = .null
  read?_write {v : Value} : lib.Written 127 v → lib.read? (lib.write v) = some v

/-- Every finite double is read back as itself. -/
def Codec.Exact (lib : Codec) : Prop :=
  ∀ x : Float, x.isFinite = true → lib.float? (lib.ofFloat x) = some x

variable {β : Type} {lib : Codec} {names : List String} {members others : List (Text × Value)}
  {name : String} {v : Value} {r : Record}

/-! ## Members with one of the names -/

def named (names : List String) (members : List (Text × Value)) : List (String × Value) :=
  members.filterMap fun e => (e.1.filter (· ∈ names)).map fun name => (name,e.2)

theorem named_append (names : List String) (before after : List (Text × Value)) :
    named names (before ++ after) = named names before ++ named names after :=
  List.filterMap_append

theorem named_singleton_of_mem (h : name ∈ names) (v : Value) :
    named names [(some name,v)] = [(name,v)] := by
  simp [named, h]

theorem named_singleton_of_not_mem (h : name ∉ names) (v : Value) :
    named names [(some name,v)] = [] := by
  simp [named, h]

theorem mem_named : (name,v) ∈ named names members ↔ name ∈ names ∧ (some name,v) ∈ members := by
  simp only [named, List.mem_filterMap, Option.map_eq_some_iff, Option.filter_eq_some_iff,
    decide_eq_true_eq]
  constructor
  · rintro ⟨⟨_,_⟩,he,_,⟨rfl,hname⟩,heq⟩
    cases heq
    exact ⟨hname,he⟩
  · rintro ⟨hname,he⟩
    exact ⟨_,he,name,⟨rfl,hname⟩,rfl⟩

/-- Every name has characters, and none of `names` is there twice. -/
structure Collectible (names : List String) (members : List (Text × Value)) : Prop where
  spelled : ∀ e ∈ members, e.1 ≠ none
  once : ((named names members).map (·.1)).Nodup

theorem Collectible.perm (h : Collectible names members) (hperm : members.Perm others) :
    Collectible names others where
  spelled e he := h.spelled e (hperm.mem_iff.mpr he)
  once := ((hperm.filterMap _).map _).nodup_iff.mp h.once

theorem Collectible.sublist (h : Collectible names members) (hsub : others.Sublist members) :
    Collectible names others where
  spelled e he := h.spelled e (hsub.subset he)
  once := h.once.sublist ((hsub.filterMap _).map _)

theorem collectible_concat_of_mem (h : name ∈ names) :
    Collectible names (members ++ [(some name,v)]) ↔
      name ∉ (named names members).map (·.1) ∧ Collectible names members := by
  have hnamed : (named names (members ++ [(some name,v)])).map (·.1) =
      (named names members).map (·.1) ++ [name] := by
    rw [named_append, named_singleton_of_mem h, List.map_append]
    rfl
  constructor
  · intro hall
    have honce := hall.once
    rw [hnamed, ← List.concat_eq_append, List.nodup_concat] at honce
    exact ⟨honce.1,hall.sublist (List.sublist_append_left _ _)⟩
  · rintro ⟨hnew,hspelled,honce⟩
    refine ⟨fun e he => ?_,?_⟩
    · rcases List.mem_append.mp he with he | he
      · exact hspelled e he
      · rw [List.mem_singleton.mp he]
        exact Option.some_ne_none name
    · rw [hnamed, ← List.concat_eq_append, List.nodup_concat]
      exact ⟨hnew,honce⟩

theorem collectible_concat_of_not_mem (h : name ∉ names) :
    Collectible names (members ++ [(some name,v)]) ↔ Collectible names members := by
  constructor
  · exact fun hall => hall.sublist (List.sublist_append_left _ _)
  · rintro ⟨hspelled,honce⟩
    refine ⟨fun e he => ?_,?_⟩
    · rcases List.mem_append.mp he with he | he
      · exact hspelled e he
      · rw [List.mem_singleton.mp he]
        exact Option.some_ne_none name
    · rwa [named_append, named_singleton_of_not_mem h, List.append_nil]

/-! ## Records of objects -/

def Record.collected (names : List String) (members : List (Text × Value)) : Record :=
  fun name => (named names members).lookup name

theorem Record.collected_concat (h : name ∈ names)
    (hnew : name ∉ (named names members).map (·.1)) (v : Value) :
    Record.collected names (members ++ [(some name,v)]) =
      (Record.collected names members).give name v := by
  funext key
  rw [collected, named_append, named_singleton_of_mem h, List.lookup_append, give, collected]
  by_cases hkey : key = name
  · subst hkey
    rw [lookup_eq_none_iff.mpr hnew, if_pos rfl, List.lookup_cons_self, Option.none_or]
  · rw [if_neg hkey, lookup_cons_of_ne hkey, List.lookup_nil, Option.or_none]

namespace Codec.Decodes

variable (hlib : lib.Decodes)
include hlib

theorem record?_object_eq_some_iff : lib.record? names (.object members) = some r ↔
    Collectible names members ∧ r = .collected names members := by
  -- The last member is taken after all others.
  induction members using List.reverseRecOn generalizing r with
  | nil =>
    have hempty : Collectible names [] := ⟨List.forall_mem_nil _,List.nodup_nil⟩
    rw [hlib.record?_nil, Option.some_inj, eq_comm]
    exact (and_iff_right hempty).symm
  | append_singleton members e ih =>
    obtain ⟨_ | name,v⟩ := e
    · rw [hlib.record?_unspelled]
      constructor
      · exact nofun
      · rintro ⟨h,-⟩
        exact absurd rfl (h.spelled (none,v) (List.mem_append_right _ List.mem_cons_self))
    by_cases hname : name ∈ names
    · rw [hlib.record?_field members v hname, collectible_concat_of_mem hname]
      constructor
      · intro h
        obtain ⟨s,hs,hr⟩ := Option.bind_eq_some_iff.mp h
        obtain ⟨hmembers,rfl⟩ := ih.mp hs
        obtain ⟨hfree,hr⟩ := Option.ite_none_left_eq_some.mp hr
        have hnew : name ∉ (named names members).map (·.1) :=
          lookup_eq_none_iff.mp (Option.not_isSome_iff_eq_none.mp hfree)
        exact ⟨⟨hnew,hmembers⟩,by rw [Record.collected_concat hname hnew, Option.some.inj hr]⟩
      · rintro ⟨⟨hnew,hmembers⟩,rfl⟩
        have hfree : ¬((Record.collected names members) name).isSome = true :=
          Option.not_isSome_iff_eq_none.mpr (lookup_eq_none_iff.mpr hnew)
        rw [ih.mpr ⟨hmembers,rfl⟩, Option.bind_some, if_neg hfree,
          Record.collected_concat hname hnew]
    · have hsame : Record.collected names (members ++ [(some name,v)]) =
          Record.collected names members := by
        funext key
        rw [Record.collected, named_append, named_singleton_of_not_mem hname, List.append_nil,
          Record.collected]
      rw [hlib.record?_other members v hname, ih, collectible_concat_of_not_mem hname, hsame]

theorem exists_record? (h : Collectible names members) :
    ∃ r, lib.record? names (.object members) = some r :=
  ⟨_,hlib.record?_object_eq_some_iff.mpr ⟨h,rfl⟩⟩

theorem collectible (h : lib.record? names (.object members) = some r) :
    Collectible names members := (hlib.record?_object_eq_some_iff.mp h).1

theorem record?_eq_some_iff (h : lib.record? names (.object members) = some r) :
    r name = some v ↔ name ∈ names ∧ (some name,v) ∈ members := by
  obtain ⟨hmembers,rfl⟩ := hlib.record?_object_eq_some_iff.mp h
  rw [Record.collected, lookup_eq_some_iff_mem hmembers.once, mem_named]

end Codec.Decodes
end Json
end SolverSession
