import Mathlib.Data.List.Forall2
import Mathlib.Data.String.Basic
import SolverSession.Options
import SolverSession.Proofs.Lookup

/-!
# Option tables

A table is its values by name: insertion replaces one of them, and because entries are in order, two
tables with the same values are the same. So giving options back the values they had restores the
table itself.
-/
namespace SolverSession

theorem OptionValue.asKind_kind {value coerced : OptionValue} {wanted : OptionKind}
    (h : value.asKind wanted = some coerced) : coerced.kind = wanted := by
  unfold asKind at h
  split at h
  · cases h
    rfl
  · split at h
    case isTrue hkind =>
      cases h
      exact hkind
    case isFalse => cases h

namespace OptionTable

theorem lookup_cons_eq (e : String × OptionValue) (rest : List (String × OptionValue))
    (key : String) :
    (e :: rest).lookup key = if key = e.1 then some e.2 else rest.lookup key := by
  by_cases h : key = e.1
  · rw [if_pos h, h]
    exact List.lookup_cons_self
  · have hbeq : (key == e.1) = false := beq_false_of_ne h
    rw [List.lookup_cons, hbeq, if_neg h]

theorem lookup_insertEntry (name key : String) (value : OptionValue)
    (entries : List (String × OptionValue)) :
    (insertEntry name value entries).lookup key =
      if key = name then some value else entries.lookup key := by
  induction entries with
  | nil =>
    rw [insertEntry, lookup_cons_eq]
  | cons head rest ih =>
    simp only [insertEntry]
    by_cases hhead : head.1 = name
    · rw [if_pos hhead, lookup_cons_eq, lookup_cons_eq head, hhead]
      by_cases hkey : key = name <;> simp [hkey]
    · rw [if_neg hhead]
      split
      case isTrue => rw [lookup_cons_eq]
      case isFalse =>
        rw [lookup_cons_eq, lookup_cons_eq, ih]
        by_cases hkey : key = head.1
        · rw [if_pos hkey, if_pos hkey, if_neg (hkey ▸ hhead)]
        · rw [if_neg hkey, if_neg hkey]

variable {t u : OptionTable} {name : String} {value : OptionValue}

theorem get?_insert (t : OptionTable) (name key : String) (value : OptionValue) :
    (t.insert name value).get? key = if key = name then some value else t.get? key :=
  lookup_insertEntry name key value t.entries

theorem mem_entries_iff : (name,value) ∈ t.entries ↔ t.get? name = some value :=
  (lookup_eq_some_iff_mem (nodup_of_increasing t.ordered)).symm

theorem ext_get? (h : ∀ name, t.get? name = u.get? name) : t = u := by
  have hentries : t.entries = u.entries := eq_of_lookup_eq t.ordered u.ordered h
  cases t
  cases u
  cases hentries
  rfl

/-- Gives options their values, one after the other. -/
def insertAll (t : OptionTable) (values : List (String × OptionValue)) : OptionTable :=
  values.foldl (fun t e => t.insert e.1 e.2) t

theorem get?_insertAll_of_not_named {values : List (String × OptionValue)}
    (h : ∀ e ∈ values, e.1 ≠ name) : (t.insertAll values).get? name = t.get? name := by
  induction values generalizing t with
  | nil => rfl
  | cons e rest ih =>
    obtain ⟨hne,hrest⟩ := List.forall_mem_cons.mp h
    have hstep : (t.insert e.1 e.2).get? name = t.get? name := by
      rw [get?_insert, if_neg hne.symm]
    exact (ih hrest).trans hstep

theorem get?_insertAll (t : OptionTable) (values : List (String × OptionValue)) (name : String) :
    (t.insertAll values).get? name = (values.reverse.lookup name).or (t.get? name) := by
  induction values generalizing t with
  | nil => rfl
  | cons e rest ih =>
    have hstep : (t.insertAll (e :: rest)).get? name =
        (rest.reverse.lookup name).or ((t.insert e.1 e.2).get? name) := ih (t.insert e.1 e.2)
    rw [hstep, get?_insert, List.reverse_cons, List.lookup_append, Option.or_assoc, lookup_cons_eq]
    split <;> rfl

/-- Values taken from `u` turn a table that otherwise agrees with `u` into it. -/
theorem insertAll_restores {values : List (String × OptionValue)}
    (hvalues : ∀ e ∈ values, u.get? e.1 = some e.2)
    (hothers : ∀ name, (∀ e ∈ values, e.1 ≠ name) → t.get? name = u.get? name) :
    t.insertAll values = u := by
  induction values generalizing t with
  | nil => exact ext_get? fun name => hothers name (by simp)
  | cons e rest ih =>
    obtain ⟨he,hrest⟩ := List.forall_mem_cons.mp hvalues
    refine ih hrest fun name hname => ?_
    rw [get?_insert]
    split
    case isTrue heq => rw [heq, he]
    case isFalse hne =>
      exact hothers name (List.forall_mem_cons.mpr ⟨fun heq => hne heq.symm,hname⟩)

/-- The kind of an option that there is. -/
def kind? (t : OptionTable) (name : String) : Option OptionKind := (t.get? name).map (·.kind)

/-- The value as the option takes it: there has to be the option, and its kind has to suit. -/
def coerce? (t : OptionTable) (name : String) (value : OptionValue) : Option OptionValue :=
  (t.kind? name).bind value.asKind

theorem kind?_of_coerce? {coerced : OptionValue} (h : t.coerce? name value = some coerced) :
    t.kind? name = some coerced.kind := by
  obtain ⟨kind,hkind,hcoerced⟩ := Option.bind_eq_some_iff.mp h
  rw [hkind, OptionValue.asKind_kind hcoerced]

/-- The second entry is what the table takes for the first. -/
structure Takes (t : OptionTable) (given taken : String × OptionValue) : Prop where
  name : taken.1 = given.1
  value : t.coerce? given.1 given.2 = some taken.2

variable {given taken : List (String × OptionValue)}

theorem Takes.exists_get? {given taken : String × OptionValue} (h : t.Takes given taken) :
    ∃ earlier, t.get? taken.1 = some earlier := by
  obtain ⟨earlier,hearlier,-⟩ := Option.map_eq_some_iff.mp (kind?_of_coerce? h.value)
  exact ⟨earlier,h.name ▸ hearlier⟩

theorem names_of_takes (h : List.Forall₂ t.Takes given taken) :
    taken.map (·.1) = given.map (·.1) := by
  induction h with
  | nil => rfl
  | cons hhead _ ih => rw [List.map_cons, List.map_cons, hhead.name, ih]

theorem exists_coerce?_of_takes (h : List.Forall₂ t.Takes given taken) :
    ∀ e ∈ given, ∃ coerced, t.coerce? e.1 e.2 = some coerced := by
  induction h with
  | nil => simp
  | cons hhead _ ih => exact List.forall_mem_cons.mpr ⟨⟨_,hhead.value⟩,ih⟩

theorem exists_get?_of_takes (h : List.Forall₂ t.Takes given taken) :
    ∀ e ∈ taken, ∃ earlier, t.get? e.1 = some earlier := by
  induction h with
  | nil => simp
  | cons hhead _ ih => exact List.forall_mem_cons.mpr ⟨hhead.exists_get?,ih⟩

theorem lookup_of_takes (h : List.Forall₂ t.Takes given taken) :
    taken.lookup name = (given.lookup name).bind (t.coerce? name) := by
  induction h with
  | nil => rfl
  | @cons e e' _ _ hhead _ ih =>
    rw [lookup_cons_eq, lookup_cons_eq, hhead.name]
    split
    case isTrue heq => rw [heq, Option.bind_some, hhead.value]
    case isFalse => exact ih

theorem get?_insertAll_of_not_taken (h : List.Forall₂ t.Takes given taken)
    (hgiven : ∀ e ∈ given, e.1 ≠ name) : (u.insertAll taken).get? name = u.get? name := by
  refine get?_insertAll_of_not_named fun e he heq => ?_
  have hname : name ∈ given.map (·.1) := by
    rw [← names_of_takes h, ← heq]
    exact List.mem_map_of_mem he
  obtain ⟨e',he',heq'⟩ := List.mem_map.mp hname
  exact hgiven e' he' heq'

theorem get?_insertAll_last {before after : List (String × OptionValue)}
    (h : List.Forall₂ t.Takes (before ++ (name,value) :: after) taken)
    (hafter : ∀ e ∈ after, e.1 ≠ name) :
    (u.insertAll taken).get? name = t.coerce? name value := by
  induction before generalizing u taken with
  | nil =>
    rcases h with _ | ⟨⟨hname,hvalue⟩,hrest⟩
    refine (get?_insertAll_of_not_taken hrest hafter).trans ?_
    rw [get?_insert, if_pos hname.symm]
    exact hvalue.symm
  | cons e rest ih =>
    rcases h with _ | ⟨-,hrest⟩
    exact ih (u := u.insert _ _) hrest

theorem kind?_insertAll (h : List.Forall₂ t.Takes given taken)
    (hu : ∀ key, u.kind? key = t.kind? key) (key : String) :
    (u.insertAll taken).kind? key = t.kind? key := by
  induction h generalizing u with
  | nil => exact hu key
  | cons hhead _ ih =>
    refine ih fun key' => ?_
    have hkind := kind?_of_coerce? hhead.value
    unfold kind? at hu ⊢
    rw [get?_insert]
    split
    case isTrue heq => rw [heq, hhead.name]; exact hkind.symm
    case isFalse => exact hu key'

end OptionTable
end SolverSession
