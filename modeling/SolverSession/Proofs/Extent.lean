import Mathlib.Order.Bounds.Defs
import SolverSession.Proofs.Flattening

/-!
# How far a vector reaches

Expansion loses no entry exactly from the extent of the vector on, since this is the least number
above all of its indices. The index that is the last of all words is an exception: there is no word
above it, and the extent of a vector with this index is not computed at all.
-/
namespace SolverSession.SparseVec

variable {α : Type} {v : SparseVec α} {n : Nat}

/-! ## The extent is the least bound -/

theorem extent?_of_max {i : Nat} (h : v.indices.max? = some i) :
    v.extent? = if i+1 < wordCount then some (i+1) else none := by
  rw [extent?, h]

theorem extent?_le_iff {m : Nat} (h : v.extent? = some m) : m ≤ n ↔ ∀ i ∈ v.indices, i < n := by
  cases hmax : v.indices.max? with
  | none =>
    have hnone : v.indices = [] := List.max?_eq_none_iff.mp hmax
    rw [extent?, hmax] at h
    obtain rfl := Option.some.inj h
    simp [hnone]
  | some i =>
    obtain ⟨hmem,hlargest⟩ := List.max?_eq_some_iff.mp hmax
    rw [extent?_of_max hmax, Option.ite_none_right_eq_some] at h
    obtain rfl := Option.some.inj h.2
    exact ⟨fun hle j hj => Nat.lt_of_le_of_lt (hlargest j hj) hle,fun hall => hall i hmem⟩

theorem extent?_lt {m : Nat} (h : v.extent? = some m) : m < wordCount := by
  unfold extent? at h
  split at h
  · obtain rfl := Option.some.inj h
    decide
  · rw [Option.ite_none_right_eq_some] at h
    obtain ⟨hlt,heq⟩ := h
    exact Option.some.inj heq ▸ hlt

theorem extent?_eq_none_iff (hwords : ∀ i ∈ v.indices, i < wordCount) :
    v.extent? = none ↔ wordCount-1 ∈ v.indices := by
  cases hmax : v.indices.max? with
  | none =>
    have hnone : v.indices = [] := List.max?_eq_none_iff.mp hmax
    simp [extent?, hnone]
  | some i =>
    obtain ⟨hmem,hlargest⟩ := List.max?_eq_some_iff.mp hmax
    have hword := hwords i hmem
    have hnone : v.extent? = none ↔ wordCount ≤ i+1 := by
      rw [extent?_of_max hmax, ite_eq_right_iff, ← Nat.not_lt]
      exact ⟨fun h hlt => Option.some_ne_none _ (h hlt),fun h hlt => absurd hlt h⟩
    rw [hnone]
    constructor
    · intro hle
      obtain rfl : i = wordCount-1 := by omega
      exact hmem
    · intro hlast
      have hge := hlargest _ hlast
      omega

/-! ## Entries that fit -/

theorem write_shows_iff {dense : List α} {e : Nat × α} :
    (write dense e)[e.1]? = some e.2 ↔ e.1 < dense.length := by
  constructor
  · intro h
    have hlt := (List.getElem?_eq_some_iff.mp h).1
    rwa [write, List.length_set] at hlt
  · exact fun h => List.getElem?_set_self h

variable [Zero α]

/-- Expansion to `n` components finds room for every entry: right after it is written it stands at
its index. -/
def FitsIn (v : SparseVec α) (n : Nat) : Prop :=
  ∀ before e after, v.entries = before ++ e :: after →
    (write (before.foldl write (List.replicate n 0)) e)[e.1]? = some e.2

theorem fitsIn_iff (hparallel : v.indices.length = v.values.length) :
    v.FitsIn n ↔ ∀ i ∈ v.indices, i < n := by
  simp only [FitsIn, write_shows_iff, foldl_write_length, List.length_replicate]
  rw [← entries_keys hparallel, List.forall_mem_map]
  constructor
  · intro h e he
    obtain ⟨before,after,hsplit⟩ := List.append_of_mem he
    exact h before e after hsplit
  · intro h before e after hsplit
    exact h e (hsplit ▸ List.mem_append_right before List.mem_cons_self)

/-- Without the last word among its indices a vector has an extent: the least number above all of
them, zero for an empty one, and the least length that it can be expanded to without loss. With the
last word there is no answer, although from the number of words on every length is enough. -/
theorem extent_exact (hparallel : v.indices.length = v.values.length)
    (hwords : ∀ i ∈ v.indices, i < wordCount) :
    (wordCount-1 ∉ v.indices → ∃ m, v.extent? = some m ∧ m < wordCount ∧
      IsLeast {n | ∀ i ∈ v.indices, i < n} m ∧ (m = 0 ↔ v.indices = []) ∧
      ∀ n, v.FitsIn n ↔ m ≤ n) ∧
    (wordCount-1 ∈ v.indices → v.extent? = none ∧ ∀ n, v.FitsIn n ↔ wordCount ≤ n) := by
  have hnone := extent?_eq_none_iff hwords
  constructor
  · intro hlast
    obtain ⟨m,hm⟩ := Option.ne_none_iff_exists'.mp (mt hnone.mp hlast)
    have hbounds : ∀ n, m ≤ n ↔ ∀ i ∈ v.indices, i < n := fun n => extent?_le_iff hm
    refine ⟨m,hm,extent?_lt hm,⟨(hbounds m).mp (Nat.le_refl m),fun n hn => (hbounds n).mpr hn⟩,
      ?_,fun n => ?_⟩
    · rw [← Nat.le_zero, hbounds, List.eq_nil_iff_forall_not_mem]
      exact forall₂_congr fun i _ => iff_of_false (Nat.not_lt_zero i) id
    · rw [fitsIn_iff hparallel, hbounds]
  · intro hlast
    refine ⟨hnone.mpr hlast,fun n => ?_⟩
    rw [fitsIn_iff hparallel]
    constructor
    · intro h
      have hlt := h _ hlast
      omega
    · exact fun h i hi => Nat.lt_of_lt_of_le (hwords i hi) h

/-- Indices out of order up to the last but one of all words. -/
theorem extent_exact_last_but_one :
    let v : SparseVec Float := ⟨[7,wordCount-2,0],[1,0,2]⟩
    v.extent? = some (wordCount-1) ∧ ∀ n, v.FitsIn n ↔ wordCount-1 ≤ n := by
  intro v
  obtain ⟨hexact,-⟩ := extent_exact (v := v) rfl (by decide)
  obtain ⟨m,hm,-,-,-,hfits⟩ := hexact (by decide)
  have hextent : v.extent? = some (wordCount-1) := by decide
  obtain rfl := Option.some.inj (hextent.symm.trans hm)
  exact ⟨hextent,hfits⟩

/-- One entry at the last of all words: nothing is returned, where the number of words is the least
number above the index and the least length without loss. -/
theorem extent_last_word :
    let v : SparseVec Float := ⟨[wordCount-1],[1]⟩
    v.indices.length = v.values.length ∧ (∀ i ∈ v.indices, i < wordCount) ∧
      IsLeast {n | ∀ i ∈ v.indices, i < n} wordCount ∧ (∀ n, v.FitsIn n ↔ wordCount ≤ n) ∧
      ¬∃ m, v.extent? = some m := by
  intro v
  have hparallel : v.indices.length = v.values.length := rfl
  have hbounds : ∀ n, (∀ i ∈ v.indices, i < n) ↔ wordCount ≤ n := by
    intro n
    rw [List.forall_mem_singleton]
    exact Nat.lt_iff_add_one_le
  refine ⟨hparallel,by decide,⟨(hbounds _).mpr (Nat.le_refl _),fun n hn => (hbounds n).mp hn⟩,
    fun n => (fitsIn_iff hparallel).trans (hbounds n),?_⟩
  rintro ⟨m,hm⟩
  cases hm

end SolverSession.SparseVec
