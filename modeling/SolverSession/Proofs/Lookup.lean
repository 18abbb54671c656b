import Mathlib.Data.List.Nodup
import Mathlib.Data.List.Sort

/-!
# Lookups

Values by key in a list of pairs. Where every key occurs once a lookup is membership, and where the
keys are also in order the lookups determine the list.
-/
namespace SolverSession

variable {κ β : Type}

theorem nodup_of_increasing [Preorder κ] {entries : List (κ × β)}
    (h : entries.Pairwise fun a b => a.1 < b.1) : (entries.map (·.1)).Nodup :=
  (List.pairwise_map.mpr h).imp ne_of_lt

variable [BEq κ] [LawfulBEq κ]

theorem lookup_cons_of_ne {key other : κ} (h : key ≠ other) (x : β) (rest : List (κ × β)) :
    ((other,x) :: rest).lookup key = rest.lookup key := by
  rw [List.lookup_cons, beq_false_of_ne h]

theorem lookup_eq_none_iff {key : κ} {entries : List (κ × β)} :
    entries.lookup key = none ↔ key ∉ entries.map (·.1) := by
  simp only [List.lookup_eq_none_iff, bne_iff_ne, List.mem_map, not_exists, not_and]
  exact forall₂_congr fun _ _ => ne_comm

theorem lookup_eq_some_iff_mem {key : κ} {x : β} {entries : List (κ × β)}
    (h : (entries.map (·.1)).Nodup) : entries.lookup key = some x ↔ (key,x) ∈ entries := by
  induction entries with
  | nil => simp
  | cons e rest ih =>
    obtain ⟨first,y⟩ := e
    obtain ⟨hfirst,hrest⟩ := List.nodup_cons.mp h
    by_cases heq : key = first
    · subst heq
      have hnot : (key,x) ∉ rest := fun hmem => hfirst (List.mem_map.mpr ⟨_,hmem,rfl⟩)
      simp [hnot, eq_comm]
    · rw [lookup_cons_of_ne heq, ih hrest]
      simp [heq]

/-- Where every key occurs once, the first value of a key is also its last. -/
theorem lookup_reverse {entries : List (κ × β)} (h : (entries.map (·.1)).Nodup) (key : κ) :
    entries.reverse.lookup key = entries.lookup key := by
  have hreverse : (entries.reverse.map (·.1)).Nodup := by
    rwa [List.map_reverse, List.nodup_reverse]
  apply Option.ext
  intro x
  rw [lookup_eq_some_iff_mem hreverse, lookup_eq_some_iff_mem h, List.mem_reverse]

theorem lookup_filter (keep : β → Bool) {entries : List (κ × β)}
    (h : (entries.map (·.1)).Nodup) (key : κ) :
    (entries.filter fun e => keep e.2).lookup key = (entries.lookup key).filter keep := by
  have hkept : ((entries.filter fun e => keep e.2).map (·.1)).Nodup :=
    h.sublist (List.filter_sublist.map _)
  apply Option.ext
  intro x
  simp only [Option.filter_eq_some_iff, lookup_eq_some_iff_mem hkept, lookup_eq_some_iff_mem h,
    List.mem_filter]

/-- A lookup finds the only value of its key. -/
theorem values_eq_lookup {entries : List (κ × β)} (h : (entries.map (·.1)).Nodup) (key : κ) :
    (entries.filter (·.1 == key)).map (·.2) = (entries.lookup key).toList := by
  induction entries with
  | nil => rfl
  | cons e rest ih =>
    obtain ⟨first,x⟩ := e
    obtain ⟨hfirst,hrest⟩ := List.nodup_cons.mp h
    by_cases heq : key = first
    · subst heq
      have hnone := ih hrest
      rw [lookup_eq_none_iff.mpr hfirst] at hnone
      simp only [List.filter_cons, beq_self_eq_true, if_true, List.map_cons, hnone,
        List.lookup_cons_self]
      rfl
    · have hne : (first == key) = false := beq_false_of_ne fun h => heq h.symm
      rw [lookup_cons_of_ne heq, ← ih hrest, List.filter_cons, hne]
      rfl

/-- Lists with increasing keys are equal if their lookups are. -/
theorem eq_of_lookup_eq [Preorder κ] {entries others : List (κ × β)}
    (hentries : entries.Pairwise fun a b => a.1 < b.1)
    (hothers : others.Pairwise fun a b => a.1 < b.1)
    (h : ∀ key, entries.lookup key = others.lookup key) : entries = others := by
  have hirrefl : Std.Irrefl fun a b : κ × β => a.1 < b.1 := ⟨fun a => lt_irrefl a.1⟩
  have hantisymm : Std.Antisymm fun a b : κ × β => a.1 < b.1 :=
    ⟨fun a b hab hba => absurd hba hab.asymm⟩
  refine hentries.eq_of_mem_iff hothers ?_
  rintro ⟨key,x⟩
  rw [← lookup_eq_some_iff_mem (nodup_of_increasing hentries), h,
    lookup_eq_some_iff_mem (nodup_of_increasing hothers)]

end SolverSession
