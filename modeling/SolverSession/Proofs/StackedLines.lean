import SolverSession.Failure
import SolverSession.Proofs.SplitModels

/-!
# Lines of a stack

Offsets, indices and values of a matrix grow together: an offset is the number of indices in the
lines before it, and there are as many values. That is why every line can be cut out where it was
put, the empty ones too. Where a line is at fault nothing is stacked, and the first such line is
named with its number.
-/
namespace SolverSession

variable {α : Type}

/-! ## Offsets -/

theorem le_of_mem_runningTotals {total n : Nat} {counts : List Nat}
    (h : n ∈ runningTotals total counts) : total ≤ n := by
  induction counts generalizing total with
  | nil => exact Nat.le_of_eq (List.mem_singleton.mp h).symm
  | cons k rest ih =>
    rcases List.mem_cons.mp h with rfl | h
    · exact Nat.le_refl _
    · exact Nat.le_trans (Nat.le_add_right total k) (ih h)

theorem runningTotals_ordered (total : Nat) (counts : List Nat) :
    (runningTotals total counts).Pairwise (· ≤ ·) := by
  induction counts generalizing total with
  | nil => exact List.pairwise_singleton _ _
  | cons k rest ih =>
    refine List.pairwise_cons.mpr ⟨fun n hn => ?_,ih (total+k)⟩
    exact Nat.le_trans (Nat.le_add_right total k) (le_of_mem_runningTotals hn)

namespace StackedMatrix

/-- The matrix has the lines in their order, and offsets that tell where each of them lies. -/
structure Holds (m : StackedMatrix α) (format : Orientation) (lines : List (SparseVec α)) :
    Prop where
  format : m.format = format
  offset : ∀ k ≤ lines.length,
    m.offsets[k]? = some ((lines.take k).map (·.indices.length)).sum
  offsetCount : m.offsets.length = lines.length+1
  first : m.offsets.head? = some 0
  ordered : m.offsets.Pairwise (· ≤ ·)
  last : m.offsets.getLast? = some m.numNonzeros
  indexCount : m.indices.length = m.numNonzeros
  valueCount : m.values.length = m.numNonzeros
  numLines : m.numLines = lines.length
  line : ∀ (k : Nat) (hk : k < lines.length), m.line? k = some lines[k]
  beyond : ∀ k, m.numLines ≤ k → m.line? k = none

theorem concat_holds (format : Orientation) {lines : List (SparseVec α)}
    (hparallel : ∀ line ∈ lines, line.indices.length = line.values.length) :
    (concat format lines).Holds format lines := by
  have hnonzeros := numNonzeros_concat format hparallel
  have hcount := numLines_concat format lines
  have hoffset : ∀ k ≤ lines.length, (concat format lines).offsets[k]? =
      some ((lines.take k).map (·.indices.length)).sum := by
    intro k hk
    rw [concat, runningTotals_getElem? 0 (by simpa using hk), Nat.zero_add, List.map_take]
  have hlength : (concat format lines).offsets.length = lines.length+1 := by
    simp [concat, runningTotals_length]
  exact {
    format := rfl
    offset := hoffset
    offsetCount := hlength
    first := by
      rw [List.head?_eq_getElem?, hoffset 0 (Nat.zero_le _)]
      rfl
    ordered := runningTotals_ordered 0 _
    last := by
      rw [List.getLast?_eq_getElem?, hlength, Nat.add_sub_cancel, hoffset _ (Nat.le_refl _),
        List.take_length, hnonzeros]
    indexCount := by rw [hnonzeros, concat, List.length_flatMap]
    valueCount := rfl
    numLines := hcount
    line := fun k hk => by rw [line?_concat format hparallel, List.getElem?_eq_getElem hk]
    beyond := fun k hk => by
      rw [line?_concat format hparallel, List.getElem?_eq_none (hcount ▸ hk)] }

end StackedMatrix

/-! ## The first fault -/

/-- Line `k` has this fault, and no line before it has any. -/
structure FirstFault (lines : List (SparseVec α)) (bound k : Nat) (fault : RowFault) : Prop where
  line : ∃ line, lines[k]? = some line ∧ line.fault? bound = some fault
  earlier : ∀ line ∈ lines.take k, line.fault? bound = none

section FirstFault

variable {line : SparseVec α} {rest : List (SparseVec α)} {bound k : Nat} {fault : RowFault}

theorem firstFault_zero :
    FirstFault (line :: rest) bound 0 fault ↔ line.fault? bound = some fault := by
  constructor
  · rintro ⟨⟨other,hother,hfault⟩,-⟩
    obtain rfl : line = other := Option.some.inj hother
    exact hfault
  · exact fun hfault => ⟨⟨line,rfl,hfault⟩,by simp⟩

theorem firstFault_succ : FirstFault (line :: rest) bound (k+1) fault ↔
    line.fault? bound = none ∧ FirstFault rest bound k fault := by
  constructor
  · rintro ⟨hline,hearlier⟩
    obtain ⟨hfirst,hearlier⟩ := List.forall_mem_cons.mp hearlier
    exact ⟨hfirst,hline,hearlier⟩
  · rintro ⟨hfirst,hline,hearlier⟩
    exact ⟨hline,List.forall_mem_cons.mpr ⟨hfirst,hearlier⟩⟩

end FirstFault

theorem firstLineFault_eq_some_iff {what : String} {bound n : Nat} {lines : List (SparseVec α)}
    {fault : ModelFault} :
    firstLineFault what bound n lines = some fault ↔
      ∃ k f, FirstFault lines bound k f ∧ fault = .line s!"{what} {n+k}" f := by
  induction lines generalizing n with
  | nil =>
    simp only [firstLineFault, reduceCtorEq, false_iff]
    rintro ⟨k,f,⟨⟨line,hline,-⟩,-⟩,-⟩
    cases hline
  | cons line rest ih =>
    cases hfault : line.fault? bound with
    | some f =>
      simp only [firstLineFault, hfault, Option.some.injEq]
      constructor
      · rintro rfl
        exact ⟨0,f,firstFault_zero.mpr hfault,rfl⟩
      · rintro ⟨k,f',hfirst,rfl⟩
        cases k with
        | zero =>
          obtain rfl : f = f' := Option.some.inj (hfault.symm.trans (firstFault_zero.mp hfirst))
          rfl
        | succ k =>
          exact absurd (hfault.symm.trans (firstFault_succ.mp hfirst).1) (Option.some_ne_none f)
    | none =>
      simp only [firstLineFault, hfault, ih]
      constructor
      · rintro ⟨k,f,hfirst,rfl⟩
        exact ⟨k+1,f,firstFault_succ.mpr ⟨hfault,hfirst⟩,by rw [Nat.add_right_comm, Nat.add_assoc]⟩
      · rintro ⟨k,f,hfirst,rfl⟩
        cases k with
        | zero =>
          exact absurd ((firstFault_zero.mp hfirst).symm.trans hfault) (Option.some_ne_none f)
        | succ k =>
          exact ⟨k,f,(firstFault_succ.mp hfirst).2,by rw [Nat.add_right_comm, Nat.add_assoc]⟩

namespace StackedMatrix

theorem stack_eq_error_iff {format : Orientation} {lines : List (SparseVec α)} {bound : Nat}
    {what : String} {fault : ModelFault} :
    stack format lines bound what = .error fault ↔
      ∃ k f, FirstFault lines bound k f ∧ fault = .line s!"{what} {k}" f := by
  have hfirst : firstLineFault what bound 0 lines = some fault ↔
      ∃ k f, FirstFault lines bound k f ∧ fault = .line s!"{what} {0+k}" f :=
    firstLineFault_eq_some_iff
  simp only [Nat.zero_add] at hfirst
  rw [← hfirst, stack]
  cases firstLineFault what bound 0 lines <;> simp

/-- Lines are stacked if each of them passes its check. The matrix then holds them: offsets start at
zero, never fall, end at the number of the values, which is that of the indices, and every line is
found again as it was. Otherwise the model is invalid, and the reason is what the check says of the
first line at fault, which is called by its number. -/
theorem stacking_lossless (format : Orientation) (lines : List (SparseVec α)) (bound : Nat)
    (what : String) :
    ((∃ m, stack format lines bound what = .ok m) ↔ ∀ line ∈ lines, line.fault? bound = none) ∧
    (∀ m, stack format lines bound what = .ok m → m.Holds format lines) ∧
    ∀ fault, stack format lines bound what = .error fault ↔
      ∃ k f, FirstFault lines bound k f ∧ fault = .line s!"{what} {k}" f ∧
        (Failure.invalidModel fault).message = "invalid model: " ++ f.message s!"{what} {k}" := by
  refine ⟨by simp [stack_eq_ok_iff],fun m h => ?_,fun fault => ?_⟩
  · obtain ⟨hlines,rfl⟩ := stack_eq_ok_iff.mp h
    exact concat_holds format fun line hline =>
      (SparseVec.fault?_eq_none_iff.mp (hlines line hline)).1
  · rw [stack_eq_error_iff]
    constructor
    · rintro ⟨k,f,hfirst,rfl⟩
      exact ⟨k,f,hfirst,rfl,rfl⟩
    · rintro ⟨k,f,hfirst,hfault,-⟩
      exact ⟨k,f,hfirst,hfault⟩

/-- An empty line between two others; with an index too many in the last line, that line is named. -/
theorem stacking_lossless_empty_line :
    let lines : List (SparseVec Float) := [⟨[2,0],[5,7]⟩,.empty,⟨[1],[3]⟩]
    let spoiled : List (SparseVec Float) := [⟨[2,0],[5,7]⟩,.empty,⟨[1,1],[3,4]⟩]
    (⟨.rowWise,[0,2,2,3],[2,0,1],[5,7,3]⟩ : StackedMatrix Float).Holds .rowWise lines ∧
      ∃ fault, stack .rowWise spoiled 3 "row" = .error fault ∧
        fault.message = "row 2 repeats index 1" := by
  intro lines spoiled
  obtain ⟨-,hholds,-⟩ := stacking_lossless .rowWise lines 3 "row"
  obtain ⟨-,-,herror⟩ := stacking_lossless .rowWise spoiled 3 "row"
  refine ⟨hholds _ rfl,_,(herror _).mpr ⟨2,.repeated 1,⟨⟨_,rfl,by decide⟩,by decide⟩,rfl,rfl⟩,?_⟩
  decide

end StackedMatrix
end SolverSession
