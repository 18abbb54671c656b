import Mathlib.Algebra.GroupWithZero.Nat
import SolverSession.FlatModel
import SolverSession.Proofs.SparseVec

/-!
# Stacked lines

Stacking accepts lines that pass their check, and then loses nothing: line `k` of the matrix is the
`k`-th line that was stacked. Batches and flat models inherit their sizes from the lists they are
made of.
-/
namespace SolverSession

variable {α : Type}

theorem runningTotals_length (total : Nat) (counts : List Nat) :
    (runningTotals total counts).length = counts.length+1 := by
  induction counts generalizing total with
  | nil => rfl
  | cons n rest ih => simp [runningTotals, ih]

theorem runningTotals_getElem? (total : Nat) {counts : List Nat} {k : Nat}
    (hk : k ≤ counts.length) :
    (runningTotals total counts)[k]? = some (total+(counts.take k).sum) := by
  induction counts generalizing total k with
  | nil =>
    obtain rfl : k = 0 := by simpa using hk
    rfl
  | cons n rest ih =>
    cases k with
    | zero => simp [runningTotals]
    | succ k =>
      have hk' : k ≤ rest.length := by simpa using hk
      simp only [runningTotals, List.getElem?_cons_succ, ih _ hk', List.take_succ_cons,
        List.sum_cons, Nat.add_assoc]

theorem firstLineFault_eq_none_iff {what : String} {bound k : Nat} {lines : List (SparseVec α)} :
    firstLineFault what bound k lines = none ↔ ∀ line ∈ lines, line.fault? bound = none := by
  induction lines generalizing k with
  | nil => simp [firstLineFault]
  | cons line rest ih =>
    cases hfault : line.fault? bound with
    | some fault => simp [firstLineFault, hfault]
    | none => simp [firstLineFault, hfault, ih]

namespace StackedMatrix

theorem stack_eq_ok_iff {format : Orientation} {lines : List (SparseVec α)} {bound : Nat}
    {what : String} {m : StackedMatrix α} :
    stack format lines bound what = .ok m ↔
      (∀ line ∈ lines, line.fault? bound = none) ∧ m = concat format lines := by
  unfold stack
  cases hfault : firstLineFault what bound 0 lines with
  | some fault =>
    simp only [reduceCtorEq, false_iff]
    intro h
    have hnone : firstLineFault what bound 0 lines = none := firstLineFault_eq_none_iff.mpr h.1
    rw [hfault] at hnone
    cases hnone
  | none =>
    have hall := firstLineFault_eq_none_iff.mp hfault
    simp only [Except.ok.injEq]
    exact ⟨fun h => ⟨hall,h.symm⟩,fun h => h.2.symm⟩

theorem line?_concat (format : Orientation) {lines : List (SparseVec α)}
    (hparallel : ∀ line ∈ lines, line.indices.length = line.values.length) (k : Nat) :
    (concat format lines).line? k = lines[k]? := by
  by_cases hk : k < lines.length
  case neg =>
    have hend : (concat format lines).offsets[k+1]? = none := by
      simp [concat, runningTotals_length]
      omega
    simp [line?, hend, Nat.not_lt.mp hk]
  case pos =>
    obtain ⟨before,line,after,rfl,rfl⟩ : ∃ before line after,
        lines = before ++ line :: after ∧ before.length = k :=
      ⟨lines.take k,lines[k],lines.drop (k+1),by simp,by simp; omega⟩
    -- Both data lists are cut at the same places, because the lines are parallel.
    have hvalues : (before.flatMap (·.values)).length = (before.flatMap (·.indices)).length := by
      rw [List.length_flatMap, List.length_flatMap]
      exact congrArg List.sum
        (List.map_congr_left fun l hl => (hparallel l (by simp [hl])).symm)
    have hline : line.values.length = line.indices.length := (hparallel line (by simp)).symm
    have hfirst : (concat format (before ++ line :: after)).offsets[before.length]? =
        some (before.flatMap (·.indices)).length := by
      rw [concat, runningTotals_getElem? 0 (by simp)]
      simp [List.length_flatMap]
    have hlast : (concat format (before ++ line :: after)).offsets[before.length+1]? =
        some ((before.flatMap (·.indices)).length+line.indices.length) := by
      rw [concat, runningTotals_getElem? 0 (by simp)]
      simp [List.length_flatMap, List.take_append, List.take_of_length_le]
    simp only [line?, hfirst, hlast, Option.bind_eq_bind, Option.bind_some]
    rw [if_pos ⟨by omega,by simp [concat],by simp [concat, hvalues, hline]⟩]
    simp [concat, ← hvalues, ← hline]

theorem filterMap_range_getElem? {β : Type} (l : List β) :
    (List.range l.length).filterMap (fun k => l[k]?) = l := by
  induction l with
  | nil => rfl
  | cons x xs ih =>
    rw [List.length_cons, List.range_succ_eq_map, List.filterMap_cons, List.filterMap_map]
    exact congrArg (x :: ·) ih

theorem lines_concat (format : Orientation) {lines : List (SparseVec α)}
    (hparallel : ∀ line ∈ lines, line.indices.length = line.values.length) :
    (concat format lines).lines = lines := by
  have hcount : (concat format lines).numLines = lines.length := by
    simp [numLines, concat, runningTotals_length]
  rw [StackedMatrix.lines, hcount, funext (line?_concat format hparallel)]
  exact filterMap_range_getElem? lines

end StackedMatrix

theorem bind_eq_ok {ε β γ : Type} {x : Except ε β} {f : β → Except ε γ} {r : γ}
    (h : x >>= f = .ok r) : ∃ a, x = .ok a ∧ f a = .ok r := by
  cases x with
  | error e => cases h
  | ok a => exact ⟨a,rfl,h⟩

theorem RowBatch.ofConstraints_eq_ok {rows : List (Constraint α)} {numCols : Nat}
    {batch : RowBatch α} (h : ofConstraints rows numCols = .ok batch) :
    (∀ row ∈ rows, row.weights.fault? numCols = none) ∧
      batch = ⟨rows.map (·.lower),rows.map (·.upper),
        .concat .rowWise (rows.map (·.weights))⟩ := by
  obtain ⟨m,hstack,h⟩ := bind_eq_ok h
  obtain ⟨hlines,rfl⟩ := StackedMatrix.stack_eq_ok_iff.mp hstack
  exact ⟨by simpa using hlines,(Except.ok.inj h).symm⟩

theorem RowBatch.lines_ofConstraints {rows : List (Constraint α)} {numCols : Nat}
    {batch : RowBatch α} (h : ofConstraints rows numCols = .ok batch) :
    batch.matrix.lines = rows.map (·.weights) := by
  obtain ⟨hrows,rfl⟩ := ofConstraints_eq_ok h
  refine StackedMatrix.lines_concat _ fun line hline => ?_
  obtain ⟨row,hrow,rfl⟩ := List.mem_map.mp hline
  exact (SparseVec.fault?_eq_none_iff.mp (hrows row hrow)).1

theorem RowBatch.size_ofConstraints {rows : List (Constraint α)} {numCols : Nat}
    {batch : RowBatch α} (h : ofConstraints rows numCols = .ok batch) :
    batch.size = rows.length := by
  rw [(ofConstraints_eq_ok h).2]
  simp [size]

theorem ColumnBatch.size_ofColumns {columns : List (Column α)} {numRows : Nat}
    {batch : ColumnBatch α} (h : ofColumns columns numRows = .ok batch) :
    batch.size = columns.length := by
  obtain ⟨m,-,h⟩ := bind_eq_ok h
  rw [← Except.ok.inj h]
  simp [size]

theorem Model.flatten_dims [Zero α] {m : Model α} {flat : FlatModel α}
    (h : m.flatten = .ok flat) :
    flat.numCols = m.vars.length ∧ flat.numRows = m.constraints.length := by
  unfold flatten at h
  split at h
  · obtain ⟨rows,-,h⟩ := bind_eq_ok h
    cases h
    exact ⟨rfl,rfl⟩
  · obtain ⟨hessian,-,h⟩ := bind_eq_ok h
    obtain ⟨costs,-,h⟩ := bind_eq_ok h
    obtain ⟨rows,-,h⟩ := bind_eq_ok h
    cases h
    exact ⟨rfl,rfl⟩

end SolverSession
