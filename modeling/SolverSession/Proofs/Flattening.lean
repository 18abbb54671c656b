import SolverSession.Proofs.Lookup
import SolverSession.Proofs.StackedMatrix

/-!
# Flat models represent their models

A flat model says about every variable, every constraint and the objective exactly what the model
says. The lemmas on the way tell when each part is accepted and what it then looks like.
-/
namespace SolverSession

variable {α : Type}

namespace SparseVec

def get? (v : SparseVec α) (i : Nat) : Option α := v.entries.lookup i

/-- Of several entries at one index the last one is what is written. -/
theorem getElem?_foldl_write_last (entries : List (Nat × α)) (dense : List α) (k : Nat) :
    (entries.foldl write dense)[k]? =
      dense[k]?.map fun x => (entries.reverse.lookup k).getD x := by
  induction entries generalizing dense with
  | nil => simp
  | cons e rest ih =>
    obtain ⟨i,x⟩ := e
    rw [List.foldl_cons, ih, List.reverse_cons, List.lookup_append]
    by_cases hk : i = k
    · subst hk
      by_cases hlt : i < dense.length
      · cases hrest : rest.reverse.lookup i <;> simp [write, hlt]
      · simp [write, hlt]
    · have hne : k ≠ i := fun h => hk h.symm
      simp [write, hk, lookup_cons_of_ne hne]

theorem getElem?_foldl_write {entries : List (Nat × α)} (hkeys : (entries.map (·.1)).Nodup)
    (dense : List α) (i : Nat) :
    (entries.foldl write dense)[i]? = dense[i]?.map fun x => (entries.lookup i).getD x := by
  rw [getElem?_foldl_write_last, lookup_reverse hkeys]

theorem entries_keys {v : SparseVec α} (hparallel : v.indices.length = v.values.length) :
    v.entries.map (·.1) = v.indices := List.map_fst_zip (Nat.le_of_eq hparallel)

theorem toDense_getElem? [Zero α] {v : SparseVec α} {bound : Nat}
    (hv : v.fault? bound = none) {n i : Nat} (hi : i < n) :
    (v.toDense n)[i]? = some ((v.get? i).getD 0) := by
  obtain ⟨hparallel,-,hnodup⟩ := fault?_eq_none_iff.mp hv
  have hkeys : (v.entries.map (·.1)).Nodup := by rwa [entries_keys hparallel]
  rw [toDense, getElem?_foldl_write hkeys]
  simp [hi, get?]

theorem foldl_write_length (entries : List (Nat × α)) (dense : List α) :
    (entries.foldl write dense).length = dense.length := by
  induction entries generalizing dense with
  | nil => rfl
  | cons e rest ih => rw [List.foldl_cons, ih, write, List.length_set]

theorem toDense_length [Zero α] (v : SparseVec α) (n : Nat) : (v.toDense n).length = n := by
  rw [toDense, foldl_write_length, List.length_replicate]

theorem empty_fault? (bound : Nat) : (empty : SparseVec α).fault? bound = none :=
  fault?_eq_none_iff.mpr ⟨rfl,nofun,.nil⟩

end SparseVec

/-! ## The Hessian -/

theorem firstAboveDiagonal_eq_none_iff {k : Nat} {columns : List (SparseVec α)} :
    firstAboveDiagonal k columns = none ↔
      ∀ j column, columns[j]? = some column → ∀ row ∈ column.indices, k+j ≤ row := by
  induction columns generalizing k with
  | nil => simp [firstAboveDiagonal]
  | cons column rest ih =>
    cases hfind : column.indices.find? (· < k) with
    | some row =>
      simp only [firstAboveDiagonal, hfind, reduceCtorEq, false_iff]
      intro hall
      have hlow := List.find?_some hfind
      have hge := hall 0 column rfl row (List.mem_of_find?_eq_some hfind)
      simp only [decide_eq_true_eq] at hlow
      omega
    | none =>
      have hfirst : ∀ row ∈ column.indices, k ≤ row := by simpa using hfind
      simp only [firstAboveDiagonal, hfind, ih]
      constructor
      · intro hall j c hc
        cases j with
        | zero =>
          obtain rfl : column = c := by simpa using hc
          simpa using hfirst
        | succ j =>
          intro row hrow
          have hge := hall j c (by simpa using hc) row hrow
          omega
      · intro hall j c hc row hrow
        have hge := hall (j+1) c (by simpa using hc) row hrow
        omega

namespace Objective

def columns (o : Objective α) (n : Nat) : List (SparseVec α) :=
  o.hessian ++ List.replicate (n-o.hessian.length) .empty

theorem columns_length {o : Objective α} {n : Nat} (h : o.hessian.length ≤ n) :
    (o.columns n).length = n := by
  simp only [columns, List.length_append, List.length_replicate]
  omega

theorem columns_getElem? {o : Objective α} {n j : Nat} (hj : j < n) :
    (o.columns n)[j]? = some (o.hessian[j]?.getD .empty) := by
  by_cases h : j < o.hessian.length
  · simp [columns, h, List.getElem?_append_left h]
  · have hrest : j-o.hessian.length < n-o.hessian.length := by omega
    simp [columns, h, List.getElem?_append_right (Nat.le_of_not_lt h), hrest]

theorem isQuadratic_iff {o : Objective α} :
    o.isQuadratic = true ↔ ∃ column ∈ o.hessian, column.indices ≠ [] := by
  simp [isQuadratic, SparseVec.isEmpty]

theorem flattenHessian_eq_ok_iff {o : Objective α} {n : Nat} {h : Option (StackedMatrix α)} :
    o.flattenHessian n = .ok h ↔
      (o.isQuadratic = false ∧ h = none) ∨
      (o.isQuadratic = true ∧ o.hessian.length ≤ n ∧
        (∀ column ∈ o.columns n, column.fault? n = none) ∧
        firstAboveDiagonal 0 (o.columns n) = none ∧
        h = some (.concat .columnWise (o.columns n))) := by
  unfold flattenHessian
  by_cases hquad : o.isQuadratic = true
  case neg =>
    have hfalse : o.isQuadratic = false := by simpa using hquad
    simp only [hfalse, Bool.false_eq_true, if_false, Except.ok.injEq, true_and, false_and,
      or_false]
    exact eq_comm
  case pos =>
    by_cases hlen : n < o.hessian.length
    · have hnot : ¬o.hessian.length ≤ n := by omega
      simp [hquad, hlen, hnot]
    · have hle : o.hessian.length ≤ n := by omega
      rw [if_pos hquad, if_neg hlen]
      simp only [hquad, hle, Bool.true_eq_false, false_and, false_or, true_and]
      constructor
      · intro hok
        obtain ⟨matrix,hstack,hok⟩ := bind_eq_ok hok
        obtain ⟨hvalid,rfl⟩ := StackedMatrix.stack_eq_ok_iff.mp hstack
        cases hdiag : firstAboveDiagonal 0 (o.columns n) with
        | some fault =>
          rw [columns] at hdiag
          simp only [hdiag, reduceCtorEq] at hok
        | none =>
          have hmatch := hdiag
          rw [columns] at hmatch
          simp only [hmatch, Except.ok.injEq] at hok
          exact ⟨hvalid,rfl,hok.symm⟩
      · rintro ⟨hvalid,hdiag,rfl⟩
        have hstack : StackedMatrix.stack .columnWise (o.columns n) n "hessian column" =
            .ok (.concat .columnWise (o.columns n)) :=
          StackedMatrix.stack_eq_ok_iff.mpr ⟨hvalid,rfl⟩
        rw [columns] at hstack hdiag
        simp only [hstack, hdiag, bind, Except.bind, columns]

theorem flattenWeights_eq_ok_iff [Zero α] {o : Objective α} {n : Nat} {costs : List α} :
    o.flattenWeights n = .ok costs ↔ o.weights.fault? n = none ∧ costs = o.weights.toDense n := by
  unfold flattenWeights
  cases o.weights.fault? n with
  | some fault => simp
  | none => simp [eq_comm]

end Objective

/-! ## The whole model -/

namespace Model

def rowMatrix (m : Model α) : StackedMatrix α :=
  .concat .rowWise (m.constraints.map (·.weights))

theorem flattenRows_eq_ok_iff {m : Model α} {rows : StackedMatrix α} :
    m.flattenRows = .ok rows ↔
      (∀ c ∈ m.constraints, c.weights.fault? m.vars.length = none) ∧ rows = m.rowMatrix := by
  rw [flattenRows, StackedMatrix.stack_eq_ok_iff, List.forall_mem_map, rowMatrix]

variable [Zero α]

theorem flatten_eq_ok_iff_of_none {m : Model α} {f : FlatModel α} (ho : m.objective = none) :
    m.flatten = .ok f ↔
      (∀ c ∈ m.constraints, c.weights.fault? m.vars.length = none) ∧
      f = m.toFlat .minimize 0 (List.replicate m.vars.length 0) none m.rowMatrix := by
  unfold flatten
  rw [ho]
  constructor
  · intro h
    obtain ⟨rows,hrows,h⟩ := bind_eq_ok h
    obtain ⟨hvalid,rfl⟩ := flattenRows_eq_ok_iff.mp hrows
    exact ⟨hvalid,(Except.ok.inj h).symm⟩
  · rintro ⟨hvalid,rfl⟩
    have hrows := flattenRows_eq_ok_iff.mpr ⟨hvalid,rfl⟩
    simp only [hrows, bind, Except.bind, pure, Except.pure]

theorem flatten_eq_ok_iff_of_some {m : Model α} {f : FlatModel α} {o : Objective α}
    (ho : m.objective = some o) :
    m.flatten = .ok f ↔ ∃ hessian, o.flattenHessian m.vars.length = .ok hessian ∧
      o.weights.fault? m.vars.length = none ∧
      (∀ c ∈ m.constraints, c.weights.fault? m.vars.length = none) ∧
      f = m.toFlat o.sense o.offset (o.weights.toDense m.vars.length) hessian m.rowMatrix := by
  unfold flatten
  rw [ho]
  constructor
  · intro h
    obtain ⟨hessian,hhessian,h⟩ := bind_eq_ok h
    obtain ⟨costs,hcosts,h⟩ := bind_eq_ok h
    obtain ⟨rows,hrows,h⟩ := bind_eq_ok h
    obtain ⟨hweights,rfl⟩ := Objective.flattenWeights_eq_ok_iff.mp hcosts
    obtain ⟨hvalid,rfl⟩ := flattenRows_eq_ok_iff.mp hrows
    exact ⟨hessian,hhessian,hweights,hvalid,(Except.ok.inj h).symm⟩
  · rintro ⟨hessian,hhessian,hweights,hvalid,rfl⟩
    have hcosts := Objective.flattenWeights_eq_ok_iff.mpr ⟨hweights,rfl⟩
    have hrows := flattenRows_eq_ok_iff.mpr ⟨hvalid,rfl⟩
    simp only [hhessian, hcosts, hrows, bind, Except.bind, pure, Except.pure]

def weight? (m : Model α) (j : Nat) : Option α := m.objective.bind (·.weights.get? j)

/-- Column `j` of the Hessian of the objective. -/
def hessianColumn? (m : Model α) (j : Nat) : Option (SparseVec α) :=
  m.objective.bind (·.hessian[j]?)

end Model

theorem StackedMatrix.numLines_concat (format : Orientation) (lines : List (SparseVec α)) :
    (concat format lines).numLines = lines.length := by
  simp [numLines, concat, runningTotals_length]

/-- The objective of the flat model is that of the model. -/
structure FlatModel.SameObjective [Zero α] (f : FlatModel α) (m : Model α) : Prop where
  sense : f.sense = (m.objective.map (·.sense)).getD .minimize
  offset : f.offset = (m.objective.map (·.offset)).getD 0
  costCount : f.colCost.length = m.vars.length
  cost : ∀ j < m.vars.length, f.colCost[j]? = some ((m.weight? j).getD 0)
  hessianSome : f.hessian.isSome ↔
    ∃ o column, m.objective = some o ∧ column ∈ o.hessian ∧ column.indices ≠ []
  hessianFormat : ∀ h ∈ f.hessian, h.format = .columnWise
  hessianCount : ∀ h ∈ f.hessian, h.numLines = m.vars.length
  hessianColumn : ∀ h ∈ f.hessian, ∀ j < m.vars.length,
    h.line? j = some ((m.hessianColumn? j).getD .empty)
  /-- No index of a column lies above the diagonal. -/
  lower : ∀ h ∈ f.hessian, ∀ j column, h.line? j = some column →
    ∀ row ∈ column.indices, j ≤ row ∧ row < m.vars.length

/-- Variables and constraints of the flat model are those of the model. -/
structure FlatModel.SameParts (f : FlatModel α) (m : Model α) : Prop where
  numCols : f.numCols = m.vars.length
  numRows : f.numRows = m.constraints.length
  colLower : f.colLower = m.vars.map (·.lower)
  colUpper : f.colUpper = m.vars.map (·.upper)
  rowLower : f.rowLower = m.constraints.map (·.lower)
  rowUpper : f.rowUpper = m.constraints.map (·.upper)
  rowFormat : f.rows.format = .rowWise
  rowCount : f.rows.numLines = m.constraints.length
  row : ∀ k, f.rows.line? k = m.constraints[k]?.map (·.weights)
  integralityNone : f.integrality = none ↔ ∀ v ∈ m.vars, v.kind = .continuous
  integralityCodes : ∀ codes ∈ f.integrality, codes = m.vars.map (·.kind.code)
  namesNone : f.names = none ↔ ∀ v ∈ m.vars, v.name = none
  namesCount : ∀ names ∈ f.names, names.length = m.vars.length
  nameAt : ∀ names ∈ f.names, ∀ (j : Nat) (v : Variable α), m.vars[j]? = some v →
    names[j]? = some (v.name.getD s!"c{j}")

namespace Model

theorem toFlat_sameParts {m : Model α} (sense : Sense) (offset : α) (costs : List α)
    (hessian : Option (StackedMatrix α))
    (hvalid : ∀ c ∈ m.constraints, c.weights.fault? m.vars.length = none) :
    (m.toFlat sense offset costs hessian m.rowMatrix).SameParts m where
  numCols := rfl
  numRows := rfl
  colLower := rfl
  colUpper := rfl
  rowLower := rfl
  rowUpper := rfl
  rowFormat := rfl
  rowCount := by
    rw [toFlat, rowMatrix, StackedMatrix.numLines_concat, List.length_map]
  row := by
    intro k
    have hparallel : ∀ line ∈ m.constraints.map (·.weights),
        line.indices.length = line.values.length := by
      intro line hline
      obtain ⟨c,hc,rfl⟩ := List.mem_map.mp hline
      exact (SparseVec.fault?_eq_none_iff.mp (hvalid c hc)).1
    rw [toFlat, rowMatrix, StackedMatrix.line?_concat _ hparallel, List.getElem?_map]
  integralityNone := by
    simp [toFlat, integrality]
  integralityCodes := by
    intro codes hcodes
    simp only [toFlat, integrality] at hcodes
    split at hcodes
    · exact (Option.some.inj hcodes).symm
    · cases hcodes
  namesNone := by
    simp [toFlat, columnNames]
  namesCount := by
    intro names hnames
    simp only [toFlat, columnNames] at hnames
    split at hnames
    · rw [← Option.some.inj hnames]
      simp
    · cases hnames
  nameAt := by
    intro names hnames j v hv
    simp only [toFlat, columnNames] at hnames
    split at hnames
    · rw [← Option.some.inj hnames]
      simp [List.getElem?_zipIdx, hv, Variable.nameAt]
    · cases hnames

variable [Zero α]

theorem toFlat_sameObjective_of_none {m : Model α} (ho : m.objective = none)
    (rows : StackedMatrix α) :
    (m.toFlat .minimize 0 (List.replicate m.vars.length 0) none rows).SameObjective m where
  sense := by simp [toFlat, ho]
  offset := by simp [toFlat, ho]
  costCount := by simp [toFlat]
  cost := by
    intro j hj
    simp [toFlat, weight?, ho, hj]
  hessianSome := by simp [toFlat, ho]
  hessianFormat := nofun
  hessianCount := nofun
  hessianColumn := nofun
  lower := nofun

theorem toFlat_sameObjective_of_some {m : Model α} {o : Objective α}
    {hessian : Option (StackedMatrix α)} (ho : m.objective = some o)
    (hweights : o.weights.fault? m.vars.length = none)
    (hhessian : o.flattenHessian m.vars.length = .ok hessian) (rows : StackedMatrix α) :
    (m.toFlat o.sense o.offset (o.weights.toDense m.vars.length) hessian rows).SameObjective m := by
  have hcases := Objective.flattenHessian_eq_ok_iff.mp hhessian
  -- What is stacked has a column for each variable, all of them valid and below the diagonal.
  have hstack : ∀ h ∈ hessian, (∀ column ∈ o.columns m.vars.length,
      column.fault? m.vars.length = none) ∧ o.hessian.length ≤ m.vars.length ∧
      firstAboveDiagonal 0 (o.columns m.vars.length) = none ∧
      h = .concat .columnWise (o.columns m.vars.length) := by
    intro h hh
    rcases hcases with ⟨-,rfl⟩ | ⟨-,hlen,hvalid,hdiag,rfl⟩
    · cases hh
    · exact ⟨hvalid,hlen,hdiag,(Option.some.inj hh).symm⟩
  have hline : ∀ h ∈ hessian, ∀ j, h.line? j = (o.columns m.vars.length)[j]? := by
    intro h hh j
    obtain ⟨hvalid,-,-,rfl⟩ := hstack h hh
    exact StackedMatrix.line?_concat _
      (fun line hmem => (SparseVec.fault?_eq_none_iff.mp (hvalid line hmem)).1) j
  exact {
    sense := by simp [toFlat, ho]
    offset := by simp [toFlat, ho]
    costCount := SparseVec.toDense_length _ _
    cost := by
      intro j hj
      have hcost := SparseVec.toDense_getElem? hweights hj
      simpa [toFlat, weight?, ho] using hcost
    hessianSome := by
      have hiff : o.isQuadratic = true ↔ _ := Objective.isQuadratic_iff
      rcases hcases with ⟨hlinear,rfl⟩ | ⟨hquad,-,-,-,rfl⟩
      · rw [hlinear] at hiff
        simpa [toFlat, ho] using hiff
      · rw [hquad] at hiff
        simpa [toFlat, ho] using hiff
    hessianFormat := by
      intro h hh
      obtain ⟨-,-,-,rfl⟩ := hstack h hh
      rfl
    hessianCount := by
      intro h hh
      obtain ⟨-,hlen,-,rfl⟩ := hstack h hh
      rw [StackedMatrix.numLines_concat, Objective.columns_length hlen]
    hessianColumn := by
      intro h hh j hj
      rw [hline h hh, Objective.columns_getElem? hj, hessianColumn?, ho]
      rfl
    lower := by
      intro h hh j column hcolumn row hrow
      rw [hline h hh] at hcolumn
      obtain ⟨hvalid,-,hdiag,-⟩ := hstack h hh
      have hbelow := firstAboveDiagonal_eq_none_iff.mp hdiag j column hcolumn row hrow
      have hfault := hvalid column (List.mem_of_getElem? hcolumn)
      have hbound := (SparseVec.fault?_eq_none_iff.mp hfault).2.1 row hrow
      omega }

/-- Flattening keeps all parts of a model, whether it has an objective or not. -/
theorem flatten_same {m : Model α} {f : FlatModel α} (h : m.flatten = .ok f) :
    f.SameParts m ∧ f.SameObjective m := by
  cases ho : m.objective with
  | none =>
    obtain ⟨hvalid,rfl⟩ := (flatten_eq_ok_iff_of_none ho).mp h
    exact ⟨toFlat_sameParts _ _ _ _ hvalid,toFlat_sameObjective_of_none ho _⟩
  | some o =>
    obtain ⟨hessian,hhessian,hweights,hvalid,rfl⟩ := (flatten_eq_ok_iff_of_some ho).mp h
    exact ⟨toFlat_sameParts _ _ _ _ hvalid,
      toFlat_sameObjective_of_some ho hweights hhessian _⟩

end Model
end SolverSession
