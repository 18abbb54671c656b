import SolverSession.Proofs.Calls
import SolverSession.Proofs.Flattening

/-!
# Malformed models are refused

Flattening accepts the well-formed models. It accepts others in one case only: while no column of
the Hessian has an index the objective counts as linear, and values that stand there without an
index are passed over.
-/
namespace SolverSession

variable {α : Type}

/-- As many values as indices, and every index below `n` and named once. -/
structure SparseVec.Indexes (v : SparseVec α) (n : Nat) : Prop where
  parallel : v.indices.length = v.values.length
  below : ∀ i ∈ v.indices, i < n
  distinct : v.indices.Nodup

theorem SparseVec.fault?_eq_none_iff_indexes {v : SparseVec α} {n : Nat} :
    v.fault? n = none ↔ v.Indexes n :=
  fault?_eq_none_iff.trans ⟨fun ⟨hparallel,hbelow,hdistinct⟩ => ⟨hparallel,hbelow,hdistinct⟩,
    fun h => ⟨h.parallel,h.below,h.distinct⟩⟩

theorem SparseVec.empty_indexes (n : Nat) : (empty : SparseVec α).Indexes n :=
  fault?_eq_none_iff_indexes.mp (empty_fault? n)

/-! ## The Hessian -/

namespace Hessian

/-- The columns are part of a lower triangle in `n` variables. There may be any number of columns as
long as no column has an index. -/
structure WellFormed (columns : List (SparseVec α)) (n : Nat) : Prop where
  column : ∀ column ∈ columns, column.Indexes n
  lower : ∀ (j : Nat) (column : SparseVec α), columns[j]? = some column →
    ∀ row ∈ column.indices, j ≤ row
  count : (∃ column ∈ columns, column.indices ≠ []) → columns.length ≤ n

theorem nil_wellFormed (n : Nat) : WellFormed ([] : List (SparseVec α)) n :=
  ⟨nofun,nofun,nofun⟩

/-- Some column has values, and none has an index. -/
def Unindexed (columns : List (SparseVec α)) : Prop :=
  (∀ column ∈ columns, column.indices = []) ∧ ∃ column ∈ columns, column.values ≠ []

end Hessian

namespace Objective

theorem isQuadratic_eq_false_iff {o : Objective α} :
    o.isQuadratic = false ↔ ∀ column ∈ o.hessian, column.indices = [] := by
  simp [isQuadratic, SparseVec.isEmpty]

theorem columns_valid_iff {o : Objective α} {n : Nat} :
    ((∀ column ∈ o.columns n, column.fault? n = none) ∧
      firstAboveDiagonal 0 (o.columns n) = none) ↔
    (∀ column ∈ o.hessian, column.Indexes n) ∧
      ∀ (j : Nat) (column : SparseVec α), o.hessian[j]? = some column →
        ∀ row ∈ column.indices, j ≤ row := by
  simp only [SparseVec.fault?_eq_none_iff_indexes, firstAboveDiagonal_eq_none_iff, Nat.zero_add]
  constructor
  · rintro ⟨hvalid,hlower⟩
    refine ⟨fun column hmem => hvalid column (List.mem_append_left _ hmem),?_⟩
    intro j column hcolumn
    obtain ⟨hj,-⟩ := List.getElem?_eq_some_iff.mp hcolumn
    exact hlower j column (by rw [columns, List.getElem?_append_left hj, hcolumn])
  · rintro ⟨hvalid,hlower⟩
    -- The columns that fill the Hessian up are empty.
    constructor
    · intro column hmem
      rcases List.mem_append.mp hmem with hstored | hpadding
      · exact hvalid column hstored
      · rw [List.eq_of_mem_replicate hpadding]
        exact SparseVec.empty_indexes n
    · intro j column hcolumn
      by_cases hj : j < o.hessian.length
      · rw [columns, List.getElem?_append_left hj] at hcolumn
        exact hlower j column hcolumn
      · rw [columns, List.getElem?_append_right (Nat.le_of_not_lt hj)] at hcolumn
        intro row hrow
        rw [List.eq_of_mem_replicate (List.mem_of_getElem? hcolumn)] at hrow
        cases hrow

theorem flattenHessian_accepts_iff {o : Objective α} {n : Nat} :
    (∃ hessian, o.flattenHessian n = .ok hessian) ↔
      Hessian.WellFormed o.hessian n ∨ Hessian.Unindexed o.hessian := by
  cases hquad : o.isQuadratic with
  | true =>
    obtain ⟨column,hmem,hindex⟩ := isQuadratic_iff.mp hquad
    have hindexed : ¬Hessian.Unindexed o.hessian := fun h => hindex (h.1 column hmem)
    simp only [flattenHessian_eq_ok_iff, hquad, Bool.true_eq_false, false_and, false_or, true_and,
      hindexed, or_false]
    constructor
    · rintro ⟨_,hcount,hvalid,hdiag,-⟩
      obtain ⟨hcolumns,hlower⟩ := columns_valid_iff.mp ⟨hvalid,hdiag⟩
      exact ⟨hcolumns,hlower,fun _ => hcount⟩
    · intro h
      obtain ⟨hvalid,hdiag⟩ := columns_valid_iff.mpr ⟨h.column,h.lower⟩
      exact ⟨_,h.count ⟨column,hmem,hindex⟩,hvalid,hdiag,rfl⟩
  | false =>
    -- Everything is accepted; a column without an index is well formed if it has no value either.
    have hempty := isQuadratic_eq_false_iff.mp hquad
    have hok : ∃ hessian, o.flattenHessian n = .ok hessian :=
      ⟨none,flattenHessian_eq_ok_iff.mpr (.inl ⟨hquad,rfl⟩)⟩
    refine ⟨fun _ => ?_,fun _ => hok⟩
    by_cases hvalues : ∃ column ∈ o.hessian, column.values ≠ []
    · exact .inr ⟨hempty,hvalues⟩
    · refine .inl ⟨?_,?_,?_⟩
      · intro column hmem
        have hnone : column.values = [] := by
          by_contra hsome
          exact hvalues ⟨column,hmem,hsome⟩
        obtain rfl : column = .empty := by
          obtain ⟨indices,values⟩ := column
          exact congrArg₂ SparseVec.mk (hempty _ hmem) hnone
        exact SparseVec.empty_indexes n
      · intro j column hcolumn row hrow
        rw [hempty column (List.mem_of_getElem? hcolumn)] at hrow
        cases hrow
      · rintro ⟨column,hmem,hindex⟩
        exact absurd (hempty column hmem) hindex

end Objective

/-! ## The whole model -/

namespace Model

/-- Weights, rows and Hessian columns are what a model in these variables may have. -/
structure WellFormed (m : Model α) : Prop where
  weights : ∀ o ∈ m.objective, o.weights.Indexes m.vars.length
  hessian : ∀ o ∈ m.objective, Hessian.WellFormed o.hessian m.vars.length
  rows : ∀ c ∈ m.constraints, c.weights.Indexes m.vars.length

def withoutHessian (m : Model α) : Model α :=
  { m with objective := m.objective.map fun o => { o with hessian := [] } }

def HasUnindexedValues (m : Model α) : Prop :=
  ∃ o ∈ m.objective, Hessian.Unindexed o.hessian

/-- Nothing is wrong with the model but values of its Hessian that have no index. -/
def Accepted (m : Model α) : Prop :=
  m.WellFormed ∨ m.HasUnindexedValues ∧ m.withoutHessian.WellFormed

variable [Zero α]

theorem flatten_accepts_iff {m : Model α} : (∃ flat, m.flatten = .ok flat) ↔ m.Accepted := by
  cases ho : m.objective with
  | none =>
    simp only [flatten_eq_ok_iff_of_none ho, exists_and_left, exists_eq, and_true,
      SparseVec.fault?_eq_none_iff_indexes]
    constructor
    · intro hrows
      exact .inl ⟨by simp [ho],by simp [ho],hrows⟩
    · rintro (h | ⟨⟨o,hmem,-⟩,-⟩)
      · exact h.rows
      · simp [ho] at hmem
  | some o =>
    have haccepts := Objective.flattenHessian_accepts_iff (o := o) (n := m.vars.length)
    simp only [flatten_eq_ok_iff_of_some ho, SparseVec.fault?_eq_none_iff_indexes]
    constructor
    · rintro ⟨_,hessian,hhessian,hweights,hrows,-⟩
      rcases haccepts.mp ⟨hessian,hhessian⟩ with hwell | hunindexed
      · exact .inl ⟨by simpa [ho] using hweights,by simpa [ho] using hwell,hrows⟩
      · refine .inr ⟨⟨o,by simp [ho],hunindexed⟩,?_,?_,hrows⟩
        · simpa [withoutHessian, ho] using hweights
        · simpa [withoutHessian, ho] using Hessian.nil_wellFormed m.vars.length
    · rintro (h | ⟨⟨o',hmem,hunindexed⟩,h⟩)
      · obtain ⟨hessian,hhessian⟩ := haccepts.mpr (.inl (h.hessian o ho))
        exact ⟨_,hessian,hhessian,h.weights o ho,h.rows,rfl⟩
      · obtain rfl : o = o' := Option.some.inj (ho.symm.trans hmem)
        obtain ⟨hessian,hhessian⟩ := haccepts.mpr (.inr hunindexed)
        exact ⟨_,hessian,hhessian,h.weights { o with hessian := [] } (by simp [withoutHessian, ho]),
          h.rows,rfl⟩

theorem flatten_refuses_iff {m : Model α} :
    (∃ fault, m.flatten = .error fault) ↔ ¬m.Accepted := by
  rw [← flatten_accepts_iff]
  cases m.flatten <;> simp

end Model

theorem Model.flatten_withoutHessian [Zero α] {m : Model α} (h : m.HasUnindexedValues) :
    m.flatten = m.withoutHessian.flatten := by
  obtain ⟨o,ho,hempty,-⟩ := h
  have ho : m.objective = some o := ho
  have hnone : ∀ n, o.flattenHessian n = .ok none := fun n =>
    Objective.flattenHessian_eq_ok_iff.mpr
      (.inl ⟨Objective.isQuadratic_eq_false_iff.mpr hempty,rfl⟩)
  simp only [flatten, withoutHessian, ho, Option.map_some, hnone]
  rfl

/-- Faults of the model are the only invalid data of a load. -/
theorem Session.load_invalid_iff {σ : Type} [Engine σ] {s : Session σ} {m : Model Float} :
    (∃ fault, (s.load m).outcome = .failed (.invalidModel fault)) ↔
      ∃ fault, m.flatten = .error fault := by
  constructor
  · rintro ⟨fault,h⟩
    cases hflat : m.flatten with
    | error fault => exact ⟨fault,rfl⟩
    | ok flat =>
      simp only [load, hflat] at h
      rcases failed_of_calling h with ⟨message,hout,-⟩ | hout
      · simp at hout
      · simp at hout
  · rintro ⟨fault,h⟩
    exact ⟨fault,by simp [load, h]⟩

/-- A model is flattened exactly if it is well formed, or has values in its Hessian without any
index there and is well formed without its Hessian. Every other model is invalid, for flattening and
for every session that is to load it. Values without an index are lost: the flat model is the one
without the Hessian. -/
theorem Model.malformed_refused (m : Model Float) :
    ((∃ flat, m.flatten = .ok flat) ↔ m.Accepted) ∧
    ((∃ fault, m.flatten = .error fault) ↔ ¬m.Accepted) ∧
    (∀ (σ : Type) [Engine σ] (s : Session σ),
      (∃ fault, (s.load m).outcome = .failed (.invalidModel fault)) ↔ ¬m.Accepted) ∧
    (m.HasUnindexedValues → m.flatten = m.withoutHessian.flatten) := by
  refine ⟨flatten_accepts_iff,flatten_refuses_iff,?_,flatten_withoutHessian⟩
  intro σ _ s
  rw [Session.load_invalid_iff, flatten_refuses_iff]

/-- The second variable has two values in the Hessian, and no column has an index. -/
theorem Model.malformed_refused_unindexed_column :
    let m : Model Float := ⟨some ⟨true,⟨[1],[3]⟩,2,[.empty,⟨[],[1,4]⟩]⟩,
      [.free .continuous,.free .integer],[.atMost ⟨[0],[1]⟩ 5]⟩
    m.HasUnindexedValues ∧ m.flatten = m.withoutHessian.flatten := by
  intro m
  have hvalues : m.HasUnindexedValues := ⟨_,rfl,by decide,by decide⟩
  exact ⟨hvalues,(malformed_refused m).2.2.2 hvalues⟩

/-- A ragged column of the Hessian is accepted and leaves no trace. -/
theorem Model.unindexed_value_accepted :
    let m : Model Float := ⟨some ⟨false,.empty,0,[⟨[],[1]⟩]⟩,[.free .continuous],[]⟩
    ¬m.WellFormed ∧ ∃ flat, m.flatten = .ok flat ∧ flat.hessian = none := by
  intro m
  refine ⟨fun h => ?_,_,rfl,rfl⟩
  have hparallel := ((h.hessian _ rfl).column _ List.mem_cons_self).parallel
  cases hparallel

end SolverSession
