import Mathlib.Data.List.Nodup
import SolverSession.SparseVec

/-!
# Well-formed sparse vectors

Two ways to be well formed: a vector that passes its check has parallel lists and names every
position below the bound at most once, and a vector made from a dense list is moreover in order and
free of zeros. Expanding a vector of the second kind gives the dense list again.
-/
namespace SolverSession

variable {α : Type}

theorem firstRepeat_eq_none_iff {seen indices : List Nat} :
    firstRepeat seen indices = none ↔ indices.Nodup ∧ ∀ i ∈ indices, i ∉ seen := by
  induction indices generalizing seen with
  | nil => simp [firstRepeat]
  | cons i rest ih =>
    by_cases hi : i ∈ seen
    · simp [firstRepeat, hi]
    · simp only [firstRepeat, if_neg hi, ih, List.nodup_cons, List.mem_cons, not_or,
        forall_eq_or_imp]
      constructor
      · rintro ⟨hnodup,hrest⟩
        exact ⟨⟨fun hmem => (hrest i hmem).1 rfl,hnodup⟩,hi,fun k hk => (hrest k hk).2⟩
      · rintro ⟨⟨hnot,hnodup⟩,-,hrest⟩
        exact ⟨hnodup,fun k hk => ⟨fun heq => hnot (heq ▸ hk),hrest k hk⟩⟩

namespace SparseVec

theorem fault?_eq_none_iff {v : SparseVec α} {bound : Nat} :
    v.fault? bound = none ↔ v.indices.length = v.values.length ∧
      (∀ i ∈ v.indices, i < bound) ∧ v.indices.Nodup := by
  unfold fault?
  split
  case isTrue hragged => simp [hragged]
  case isFalse hparallel =>
    have hlen : v.indices.length = v.values.length := not_not.mp hparallel
    split
    case h_1 i hfind =>
      have hi := List.find?_some hfind
      have hmem := List.mem_of_find?_eq_some hfind
      simp only [decide_eq_true_eq] at hi
      simp only [reduceCtorEq, false_iff]
      exact fun h => absurd (h.2.1 i hmem) (Nat.not_lt.mpr hi)
    case h_2 hfind =>
      have hbelow : ∀ i ∈ v.indices, i < bound := by simpa using hfind
      simp only [Option.map_eq_none_iff, firstRepeat_eq_none_iff, hlen, true_and]
      exact ⟨fun h => ⟨hbelow,h.1⟩,fun h => ⟨h.2,by simp⟩⟩

theorem entries_ofEntries (entries : List (Nat × α)) : (ofEntries entries).entries = entries := by
  induction entries with
  | nil => rfl
  | cons e rest ih => exact congrArg (e :: ·) ih

variable [Zero α] [BEq α]

/-- Parallel lists, increasing indices below `bound`, and no zero. -/
structure Compressed (v : SparseVec α) (bound : Nat) : Prop where
  parallel : v.indices.length = v.values.length
  increasing : v.indices.Pairwise (· < ·)
  below : ∀ i ∈ v.indices, i < bound
  nonzero : ∀ x ∈ v.values, (x == 0) = false

theorem empty_compressed (bound : Nat) : (empty : SparseVec α).Compressed bound :=
  ⟨rfl,.nil,by simp [empty],by simp [empty]⟩

theorem mem_nonzeros {position : Nat} {values : List α} {e : Nat × α}
    (h : e ∈ nonzeros position values []) :
    position ≤ e.1 ∧ e.1 < position+values.length ∧ (e.2 == 0) = false := by
  induction values generalizing position with
  | nil => simp [nonzeros] at h
  | cons v vs ih =>
    have hrest : e ∈ nonzeros (position+1) vs [] →
        position ≤ e.1 ∧ e.1 < position+(v :: vs).length ∧ (e.2 == 0) = false := by
      intro he
      obtain ⟨hlow,hhigh,hnz⟩ := ih he
      exact ⟨by omega,by simp only [List.length_cons]; omega,hnz⟩
    simp only [nonzeros, List.tail_nil, List.headD_nil] at h
    split at h
    case isTrue hz => exact hrest h
    case isFalse hnz =>
      rcases List.mem_cons.mp h with rfl | h
      · exact ⟨Nat.le_refl _,by simp,by simpa using hnz⟩
      · exact hrest h

theorem nonzeros_increasing (position : Nat) (values : List α) :
    ((nonzeros position values []).map (·.1)).Pairwise (· < ·) := by
  induction values generalizing position with
  | nil => simp [nonzeros]
  | cons v vs ih =>
    simp only [nonzeros, List.tail_nil, List.headD_nil]
    split
    · exact ih (position+1)
    · refine List.pairwise_cons.mpr ⟨fun i hi => ?_,ih (position+1)⟩
      obtain ⟨e,he,rfl⟩ := List.mem_map.mp hi
      exact (mem_nonzeros he).1

theorem ofDense_compressed (values : List α) : (ofDense values).Compressed values.length where
  parallel := by simp [ofDense, compress, ofEntries]
  increasing := nonzeros_increasing 0 values
  below := by
    intro i hi
    obtain ⟨e,he,rfl⟩ := List.mem_map.mp hi
    simpa using (mem_nonzeros he).2.1
  nonzero := by
    intro x hx
    obtain ⟨e,he,rfl⟩ := List.mem_map.mp hx
    exact (mem_nonzeros he).2.2

/-- The entries are written behind a part of the list that they leave alone. -/
theorem foldl_write_nonzeros (before values : List α) :
    (nonzeros before.length values []).foldl write (before ++ List.replicate values.length 0) =
      before ++ values.map fun x => if x == 0 then 0 else x := by
  induction values generalizing before with
  | nil => simp [nonzeros]
  | cons v vs ih =>
    -- What the first value becomes joins the part that is left alone.
    have hnext : ∀ x : α, (nonzeros (before.length+1) vs []).foldl write
        (before ++ x :: List.replicate vs.length 0) =
          before ++ x :: vs.map fun x => if x == 0 then 0 else x := by
      intro x
      have hrest := ih (before ++ [x])
      rwa [List.length_append, List.length_singleton, List.append_assoc, List.append_assoc] at hrest
    simp only [nonzeros, List.tail_nil, List.headD_nil, List.length_cons, List.replicate_succ,
      List.map_cons]
    split
    case isTrue => exact hnext 0
    case isFalse =>
      have hwrite : write (before ++ 0 :: List.replicate vs.length 0) (before.length,v) =
          before ++ v :: List.replicate vs.length 0 := by simp [write]
      rw [List.foldl_cons, hwrite]
      exact hnext v

theorem toDense_ofDense (values : List α) :
    (ofDense values).toDense values.length = values.map fun x => if x == 0 then 0 else x := by
  have hentries : (ofDense values).entries = nonzeros 0 values [] := entries_ofEntries _
  rw [toDense, hentries]
  exact foldl_write_nonzeros [] values

end SparseVec
end SolverSession
