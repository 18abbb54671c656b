import SolverSession.Proofs.JsonLaws

/-!
# Decoding what was encoded

Scalars, lists and records come back from the values they are encoded as. A double comes back if it
is finite; of a record the members that are present are found by name.
-/
namespace SolverSession.Json

variable {β : Type} {lib : Codec} {names : List String} {name : String} {v : Value} {r : Record}

/-! ## Scalars -/

namespace Codec

theorem Decodes.bool?_bool (hlib : lib.Decodes) (b : Bool) : lib.bool? (.bool b) = some b :=
  hlib.bool?_eq_some_iff.mpr rfl

theorem Decodes.string?_ofString (hlib : lib.Decodes) (s : String) :
    lib.string? (ofString s) = some s := hlib.string?_eq_some_iff.mpr rfl

variable (hlib : lib.Lawful)
include hlib

theorem Lawful.float?_ofFloat (hexact : lib.Exact) (x : Float) :
    lib.float? (lib.ofFloat x) = if x.isFinite = true then some x else none := by
  by_cases hx : x.isFinite = true
  · rw [if_pos hx, hexact x hx]
  · rw [if_neg hx, hlib.ofFloat_other (Bool.eq_false_iff.mpr hx), Option.eq_none_iff_forall_ne_some]
    intro y hy
    obtain ⟨n,hn⟩ := hlib.float?_number hy
    cases hn

theorem Lawful.ofFloat_ne_null {x : Float} (hx : x.isFinite = true) : lib.ofFloat x ≠ .null := by
  obtain ⟨n,hn,-⟩ := hlib.ofFloat_finite hx
  rw [hn]
  exact nofun

theorem Lawful.index?_ofInt {n : Nat} (h : n < 0x10000000000000000) :
    lib.index? (lib.ofInt n) = some n := by
  have hint : lib.int? 0 0x10000000000000000 (lib.ofInt n) = some (n : Int) :=
    hlib.int?_ofInt (by decide) (by decide) (Int.natCast_nonneg n) (Int.ofNat_lt.mpr h)
  rw [index?, hint, Option.map_some, Int.toNat_natCast]

theorem Lawful.int32?_ofInt (n : Int32) : lib.int32? (lib.ofInt n.toInt) = some n := by
  have hint : lib.int? (-0x80000000) 0x80000000 (lib.ofInt n.toInt) = some n.toInt :=
    hlib.int?_ofInt (by decide) (by decide) n.le_toInt n.toInt_lt
  rw [int32?, hint, Option.map_some, Int32.ofInt_toInt]

theorem Lawful.int64?_ofInt (n : Int64) : lib.int64? (lib.ofInt n.toInt) = some n := by
  have hint : lib.int? (-0x8000000000000000) 0x8000000000000000 (lib.ofInt n.toInt) =
      some n.toInt := hlib.int?_ofInt (by decide) (by decide) n.le_toInt n.toInt_lt
  rw [int64?, hint, Option.map_some, Int64.ofInt_toInt]

end Codec

/-! ## Lists -/

section

variable {encode : β → Value} {decode : Decoder β} {finite : β → Bool} {xs : List β}
  (hlib : lib.Decodes)
include hlib

theorem Codec.Decodes.list?_ofList (restored : β → β) (h : ∀ x ∈ xs,
    decode (encode x) = if finite x = true then some (restored x) else none) :
    lib.list? decode (ofList encode xs) =
      if xs.all finite = true then some (xs.map restored) else none := by
  rw [ofList, hlib.list?_array]
  induction xs with
  | nil => rfl
  | cons x xs ih =>
    obtain ⟨hx,hxs⟩ := List.forall_mem_cons.mp h
    rw [List.map_cons, List.mapM_cons, hx, ih hxs, List.all_cons]
    cases finite x <;> cases xs.all finite <;> rfl

theorem Codec.Decodes.list?_ofList_same
    (h : ∀ x ∈ xs, decode (encode x) = if finite x = true then some x else none) :
    lib.list? decode (ofList encode xs) = if xs.all finite = true then some xs else none := by
  rw [hlib.list?_ofList id h, List.map_id]

theorem Codec.Decodes.list?_ofList_total (restored : β → β)
    (h : ∀ x ∈ xs, decode (encode x) = some (restored x)) :
    lib.list? decode (ofList encode xs) = some (xs.map restored) := by
  have hall : xs.all (fun _ => true) = true := List.all_eq_true.mpr fun _ _ => rfl
  have hitem : ∀ x ∈ xs, decode (encode x) = if true = true then some (restored x) else none := h
  rw [hlib.list?_ofList restored hitem, if_pos hall]

end

theorem ite_bind {γ : Type} (present : Bool) (x : β) (f : β → Option γ) :
    (if present = true then some x else none).bind f = if present = true then f x else none := by
  cases present <;> rfl

theorem ite_ite_none (first second : Bool) (x : Option β) :
    (if first = true then if second = true then x else none else none) =
      if (first && second) = true then x else none := by
  cases first <;> rfl

/-! ## Records of members that are present -/

theorem ofMembers_ne_null (fields : List (String × Option Value)) : ofMembers fields ≠ .null :=
  nofun

theorem ofMembers_written {depth : Nat} {fields : List (String × Option Value)}
    (h : ∀ e ∈ fields, ∀ v ∈ e.2, lib.Written depth v) :
    lib.Written (depth+1) (ofMembers fields) := by
  refine .object (fun e he => ?_) fun e he => ?_
  · obtain ⟨field,-,hmember⟩ := List.mem_filterMap.mp he
    obtain ⟨v,-,rfl⟩ := Option.map_eq_some_iff.mp hmember
    exact Option.some_ne_none field.1
  · obtain ⟨field,hfield,hmember⟩ := List.mem_filterMap.mp he
    obtain ⟨v,hv,rfl⟩ := Option.map_eq_some_iff.mp hmember
    exact h field hfield v hv

theorem ofList_written {depth : Nat} {encode : β → Value} {xs : List β}
    (h : ∀ x ∈ xs, lib.Written depth (encode x)) : lib.Written (depth+1) (ofList encode xs) :=
  .array (List.forall_mem_map.mpr h)

theorem mem_present {fields : List (String × Option Value)} :
    (some name,v) ∈ fields.filterMap (fun (name,v) => v.map fun v => (some name,v)) ↔
      (name,some v) ∈ fields := by
  simp

theorem collectible_present {fields : List (String × Option Value)}
    (hnodup : (fields.map (·.1)).Nodup) :
    Collectible names (fields.filterMap fun (name,v) => v.map fun v => (some name,v)) where
  spelled e he := by
    obtain ⟨field,-,hfield⟩ := List.mem_filterMap.mp he
    obtain ⟨v,-,rfl⟩ := Option.map_eq_some_iff.mp hfield
    nofun
  once := by
    rw [List.Nodup, List.pairwise_map] at hnodup ⊢
    rw [named, List.pairwise_filterMap, List.pairwise_filterMap]
    refine hnodup.imp fun hne => ?_
    simp [hne]

theorem Codec.Decodes.record?_bind (hlib : lib.Decodes) {fields : List (String × Option Value)}
    (hnames : ∀ e ∈ fields, e.1 ∈ names) (hnodup : (fields.map (·.1)).Nodup)
    {decode : Record → Option β} {x : Option β}
    (h : ∀ r : Record, (∀ name, r name = (fields.lookup name).join) → decode r = x) :
    (lib.record? names (ofMembers fields) >>= decode) = x := by
  obtain ⟨r,hr⟩ := hlib.exists_record? (collectible_present hnodup)
  rw [ofMembers, hr]
  refine h r fun name => ?_
  ext v
  rw [hlib.record?_eq_some_iff hr, mem_present, Option.join_eq_some_iff,
    lookup_eq_some_iff_mem hnodup]
  exact ⟨fun h => h.2,fun h => ⟨hnames _ h,h⟩⟩

namespace Record

variable {decode : Decoder β}

theorem required_of_given (h : r name = some v) : r.required name decode = decode v := by
  rw [required, h]

theorem optional_of_given (h : r name = some v) (default : β) :
    r.optional name decode default = decode v := by
  rw [optional, h]

theorem optional_of_absent (h : r name = none) (default : β) :
    r.optional name decode default = some default := by
  rw [optional, h]

end Record

/-- An optional part is left out or comes back as what it is. -/
theorem Codec.Decodes.optional_of_map (hlib : lib.Decodes) {encode : β → Value} {finite : β → Bool}
    {decode : Decoder β} {x : Option β} (h : r name = x.map encode) (hnull : ∀ y, encode y ≠ .null)
    (hdecode : ∀ y ∈ x, decode (encode y) = if finite y = true then some y else none) :
    r.optional name (lib.option? decode) none = if x.all finite = true then some x else none := by
  cases x with
  | none => exact Record.optional_of_absent h none
  | some y =>
    rw [Record.optional_of_given h, hlib.option?_value decode (hnull y), hdecode y rfl,
      Option.all_some]
    cases finite y <;> rfl

end SolverSession.Json
