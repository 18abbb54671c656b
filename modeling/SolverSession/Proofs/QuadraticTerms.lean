import SolverSession.Proofs.ExactValue

/-!
# Quadratic terms keep their meaning

Monomials that are added to a Hessian, in any number of batches, leave a lower triangle that
flattening accepts, and at every point it stands for the sum of the monomials. Order, repetitions and
cancellations change the stored columns and not this sum.
-/
namespace SolverSession

open Finset

variable {α : Type}

/-! ## Compressed pairs -/

theorem SparseVec.nonzeros_pairs [Zero α] [BEq α] (position : Nat) (pairs : List (Nat × α)) :
    nonzeros position (pairs.map (·.2)) (pairs.map (·.1)) = pairs.filter fun e => !(e.2 == 0) := by
  induction pairs generalizing position with
  | nil => rfl
  | cons e rest ih =>
    simp only [List.map_cons, nonzeros, List.tail_cons, List.headD_cons, ih, List.filter_cons]
    cases e.2 == 0 <;> rfl

theorem SparseVec.entries_ofPairs [Zero α] [BEq α] (pairs : List (Nat × α)) :
    (ofPairs pairs).entries = pairs.filter fun e => !(e.2 == 0) := by
  rw [ofPairs, compress, nonzeros_pairs, entries_ofEntries]

theorem SparseVec.indices_ofPairs [Zero α] [BEq α] (pairs : List (Nat × α)) :
    (ofPairs pairs).indices = (pairs.filter fun e => !(e.2 == 0)).map (·.1) := by
  rw [ofPairs, compress, nonzeros_pairs, ofEntries]

/-- The place is on or below the diagonal of a matrix with `n` rows. -/
def Contribution.Below (n : Nat) (c : Contribution α) : Prop := c.column ≤ c.row ∧ c.row < n

theorem Monomial.contribution_below [Mul α] [OfNat α 2] {n : Nat} {t : Monomial α} (hi : t.i < n)
    (hj : t.j < n) : t.contribution.Below n :=
  ⟨min_le_max,max_lt hi hj⟩

namespace Hessian

/-! ## Order and width -/

theorem before_iff {a b : Contribution α} :
    before a b = true ↔ a.column < b.column ∨ (a.column = b.column ∧ a.row ≤ b.row) := by
  simp [before]

theorem before_trans (a b c : Contribution α) (hab : before a b = true)
    (hbc : before b c = true) : before a c = true := by
  rw [before_iff] at hab hbc ⊢
  omega

theorem before_total (a b : Contribution α) : (before a b || before b a) = true := by
  rw [Bool.or_eq_true, before_iff, before_iff]
  omega

theorem sorted_pairwise (cs : List (Contribution α)) :
    (cs.mergeSort before).Pairwise fun a b => before a b = true :=
  List.pairwise_mergeSort before_trans before_total cs

/-- Within one column the order is the order of the rows. -/
theorem rows_ordered {cs : List (Contribution α)}
    (hsorted : cs.Pairwise fun a b => before a b = true) (j : Nat) :
    (cs.filter (·.column == j)).Pairwise fun a b => a.row ≤ b.row := by
  refine (hsorted.filter _).imp_of_mem ?_
  intro a b ha hb hab
  have hac : a.column = j := by simpa using (List.mem_filter.mp ha).2
  have hbc : b.column = j := by simpa using (List.mem_filter.mp hb).2
  rw [before_iff] at hab
  omega

theorem foldl_width_le {cs : List (Contribution α)} {n m : Nat} :
    cs.foldl (fun n c => max n (c.column+1)) n ≤ m ↔ n ≤ m ∧ ∀ c ∈ cs, c.column < m := by
  induction cs generalizing n with
  | nil => simp
  | cons c rest ih =>
    rw [List.foldl_cons, ih, List.forall_mem_cons, max_le_iff, Nat.succ_le_iff, and_assoc]

theorem width_le_iff {cs : List (Contribution α)} {m : Nat} :
    width cs ≤ m ↔ ∀ c ∈ cs, c.column < m := by
  simp [width, foldl_width_le]

theorem column_lt_width {cs : List (Contribution α)} {c : Contribution α} (hc : c ∈ cs) :
    c.column < width cs := width_le_iff.mp (Nat.le_refl _) c hc

/-! ## Runs of equal rows -/

section Merge

variable [Add α]

theorem mem_mergeRun {row : Nat} {sum : α} {cs : List (Contribution α)} {e : Nat × α}
    (h : e ∈ mergeRun row sum cs) : e.1 = row ∨ ∃ c ∈ cs, c.row = e.1 := by
  induction cs generalizing row sum with
  | nil =>
    obtain rfl : e = (row,sum) := by simpa [mergeRun] using h
    exact .inl rfl
  | cons c rest ih =>
    by_cases hrow : c.row = row
    · rw [mergeRun, if_pos hrow] at h
      rcases ih h with hout | ⟨d,hd,hout⟩
      · exact .inl hout
      · exact .inr ⟨d,List.mem_cons_of_mem _ hd,hout⟩
    · rw [mergeRun, if_neg hrow] at h
      rcases List.mem_cons.mp h with rfl | h
      · exact .inl rfl
      · rcases ih h with hout | ⟨d,hd,hout⟩
        · exact .inr ⟨c,List.mem_cons_self,hout.symm⟩
        · exact .inr ⟨d,List.mem_cons_of_mem _ hd,hout⟩

theorem mem_mergeRows {cs : List (Contribution α)} {e : Nat × α} (h : e ∈ mergeRows cs) :
    ∃ c ∈ cs, c.row = e.1 := by
  cases cs with
  | nil => cases h
  | cons c rest =>
    rcases mem_mergeRun h with hout | ⟨d,hd,hout⟩
    · exact ⟨c,List.mem_cons_self,hout.symm⟩
    · exact ⟨d,List.mem_cons_of_mem _ hd,hout⟩

theorem mergeRun_increasing {row : Nat} {sum : α} {cs : List (Contribution α)}
    (hrow : ∀ c ∈ cs, row ≤ c.row) (hcs : cs.Pairwise fun a b => a.row ≤ b.row) :
    ((mergeRun row sum cs).map (·.1)).Pairwise (· < ·) := by
  induction cs generalizing row sum with
  | nil => simp [mergeRun]
  | cons c rest ih =>
    obtain ⟨hc,hrest⟩ := List.forall_mem_cons.mp hrow
    obtain ⟨hfirst,hcs⟩ := List.pairwise_cons.mp hcs
    by_cases heq : c.row = row
    · rw [mergeRun, if_pos heq]
      exact ih hrest hcs
    · rw [mergeRun, if_neg heq, List.map_cons, List.pairwise_cons]
      refine ⟨?_,ih hfirst hcs⟩
      intro i hi
      obtain ⟨e,he,rfl⟩ := List.mem_map.mp hi
      rcases mem_mergeRun he with hout | ⟨d,hd,hout⟩
      · omega
      · have hge := hfirst d hd
        omega

theorem mergeRows_increasing {cs : List (Contribution α)}
    (hcs : cs.Pairwise fun a b => a.row ≤ b.row) :
    ((mergeRows cs).map (·.1)).Pairwise (· < ·) := by
  cases cs with
  | nil => exact .nil
  | cons c rest =>
    obtain ⟨hfirst,hrest⟩ := List.pairwise_cons.mp hcs
    exact mergeRun_increasing hfirst hrest

end Merge

/-! ## Lower triangles -/

/-- At most `n` columns, each of them valid and without an entry above the diagonal. -/
structure LowerTriangle (n : Nat) (columns : List (SparseVec α)) : Prop where
  width : columns.length ≤ n
  valid : ∀ (j : Nat) (column : SparseVec α), columns[j]? = some column →
    column.fault? n = none ∧ ∀ row ∈ column.indices, j ≤ row

theorem mem_contributions {k : Nat} {columns : List (SparseVec α)} {c : Contribution α}
    (h : c ∈ contributions k columns) : ∃ j column, columns[j]? = some column ∧
      c.column = k+j ∧ c.row ∈ column.indices := by
  induction columns generalizing k with
  | nil => cases h
  | cons column rest ih =>
    rcases List.mem_append.mp h with h | h
    · obtain ⟨e,he,rfl⟩ := List.mem_map.mp h
      exact ⟨0,column,rfl,rfl,(List.of_mem_zip he).1⟩
    · obtain ⟨j,d,hd,hcolumn,hrow⟩ := ih h
      exact ⟨j+1,d,hd,by omega,hrow⟩

theorem LowerTriangle.below {n : Nat} {columns : List (SparseVec α)}
    (h : LowerTriangle n columns) : ∀ c ∈ contributions 0 columns, c.Below n := by
  intro c hc
  obtain ⟨j,column,hcolumn,hj,hrow⟩ := mem_contributions hc
  obtain ⟨hvalid,hdiag⟩ := h.valid j column hcolumn
  have hlow := hdiag c.row hrow
  have hbound := (SparseVec.fault?_eq_none_iff.mp hvalid).2.1 c.row hrow
  exact ⟨by omega,hbound⟩

theorem empty_lowerTriangle (n : Nat) : LowerTriangle n ([] : List (SparseVec α)) :=
  ⟨Nat.zero_le n,nofun⟩

section Add

variable [Zero α] [BEq α] [Add α]

theorem assemble_getElem? {cs : List (Contribution α)} {j : Nat} {column : SparseVec α}
    (h : (assemble cs)[j]? = some column) :
    column = .ofPairs (mergeRows (cs.filter (·.column == j))) := by
  simp only [assemble, List.getElem?_map, Option.map_eq_some_iff] at h
  obtain ⟨k,hk,rfl⟩ := h
  obtain ⟨hlt,hkj⟩ := List.getElem?_eq_some_iff.mp hk
  rw [List.getElem_range] at hkj
  rw [hkj]

theorem assemble_lowerTriangle {n : Nat} {cs : List (Contribution α)}
    (hsorted : cs.Pairwise fun a b => before a b = true) (hbelow : ∀ c ∈ cs, c.Below n) :
    LowerTriangle n (assemble cs) where
  width := by
    have hwidth : width cs ≤ n :=
      width_le_iff.mpr fun c hc => Nat.lt_of_le_of_lt (hbelow c hc).1 (hbelow c hc).2
    simpa [assemble] using hwidth
  valid := by
    intro j column hcolumn
    obtain rfl := assemble_getElem? hcolumn
    have hplace : ∀ row ∈ (SparseVec.ofPairs (mergeRows (cs.filter (·.column == j)))).indices,
        j ≤ row ∧ row < n := by
      intro row hrow
      rw [SparseVec.indices_ofPairs] at hrow
      obtain ⟨e,he,rfl⟩ := List.mem_map.mp hrow
      obtain ⟨c,hc,hout⟩ := mem_mergeRows (List.mem_filter.mp he).1
      obtain ⟨hmem,hj⟩ := List.mem_filter.mp hc
      have hj : c.column = j := by simpa using hj
      have hlow := (hbelow c hmem).1
      have hbound := (hbelow c hmem).2
      omega
    refine ⟨SparseVec.fault?_eq_none_iff.mpr ⟨?_,fun row hrow => (hplace row hrow).2,?_⟩,
      fun row hrow => (hplace row hrow).1⟩
    · simp [SparseVec.ofPairs, SparseVec.compress, SparseVec.ofEntries]
    · rw [SparseVec.indices_ofPairs]
      exact ((mergeRows_increasing (rows_ordered hsorted j)).sublist
        (List.filter_sublist.map Prod.fst)).imp Nat.ne_of_lt

variable [Mul α] [OfNat α 2]

theorem add_lowerTriangle {n : Nat} {columns : List (SparseVec α)} {terms : List (Monomial α)}
    (hcolumns : LowerTriangle n columns) (hterms : ∀ t ∈ terms, t.i < n ∧ t.j < n) :
    LowerTriangle n (add columns terms) := by
  apply assemble_lowerTriangle (sorted_pairwise _)
  intro c hc
  rcases List.mem_append.mp (List.mem_mergeSort.mp hc) with hc | hc
  · exact hcolumns.below c hc
  · obtain ⟨t,ht,rfl⟩ := List.mem_map.mp hc
    exact t.contribution_below (hterms t ht).1 (hterms t ht).2

end Add

/-! ## Sums -/

section Sums

variable {K : Type} [Field K]

/-- `x·Q·x/2`, from contributions to the lower triangle in any order. -/
def contributed (cs : List (Contribution K)) (x : Nat → K) : K :=
  (cs.map fun c => c.value * lowerTerm x c.row c.column).sum

theorem sum_mergeRun (g : Nat → K) (row : Nat) (sum : K) (cs : List (Contribution K)) :
    ((mergeRun row sum cs).map fun e => e.2 * g e.1).sum =
      sum * g row + (cs.map fun c => c.value * g c.row).sum := by
  induction cs generalizing row sum with
  | nil => simp [mergeRun]
  | cons c rest ih =>
    by_cases hrow : c.row = row
    · rw [mergeRun, if_pos hrow, ih, List.map_cons, List.sum_cons, hrow]
      ring
    · rw [mergeRun, if_neg hrow, List.map_cons, List.sum_cons, ih, List.map_cons, List.sum_cons]

theorem sum_mergeRows (g : Nat → K) (cs : List (Contribution K)) :
    ((mergeRows cs).map fun e => e.2 * g e.1).sum = (cs.map fun c => c.value * g c.row).sum := by
  cases cs with
  | nil => rfl
  | cons c rest => rw [mergeRows, sum_mergeRun, List.map_cons, List.sum_cons]

theorem sum_ofPairs [DecidableEq K] (g : Nat → K) (pairs : List (Nat × K)) :
    ((SparseVec.ofPairs pairs).entries.map fun e => e.2 * g e.1).sum =
      (pairs.map fun e => e.2 * g e.1).sum := by
  rw [SparseVec.entries_ofPairs]
  induction pairs with
  | nil => rfl
  | cons e rest ih =>
    by_cases he : e.2 = 0
    · rw [List.filter_cons_of_neg (by simp [he]), ih, List.map_cons, List.sum_cons, he, zero_mul,
        zero_add]
    · rw [List.filter_cons_of_pos (by simp [he]), List.map_cons, List.sum_cons, ih, List.map_cons,
        List.sum_cons]

theorem sum_columns (F : Contribution K → K) {cs : List (Contribution K)} {n : Nat}
    (h : ∀ c ∈ cs, c.column < n) :
    ∑ j ∈ range n, ((cs.filter (·.column == j)).map F).sum = (cs.map F).sum := by
  induction cs with
  | nil => simp
  | cons c rest ih =>
    obtain ⟨hc,hrest⟩ := List.forall_mem_cons.mp h
    have hsplit : ∀ j, (((c :: rest).filter (·.column == j)).map F).sum =
        (if c.column = j then F c else 0) + ((rest.filter (·.column == j)).map F).sum := by
      intro j
      by_cases hj : c.column = j
      · simp [hj]
      · simp [hj]
    rw [sum_congr rfl fun j _ => hsplit j, sum_add_distrib, ih hrest, sum_ite_eq,
      if_pos (mem_range.mpr hc), List.map_cons, List.sum_cons]

theorem contribution_term [CharZero K] (t : Monomial K) (x : Nat → K) :
    t.contribution.value * lowerTerm x t.contribution.row t.contribution.column =
      t.coefficient * (x t.i * x t.j) := by
  rcases Nat.lt_trichotomy t.i t.j with hij | hij | hij
  · simp only [Monomial.contribution, lowerTerm, hij.ne, if_false, max_eq_right hij.le,
      min_eq_left hij.le, hij.ne']
    ring
  · simp only [Monomial.contribution, lowerTerm, hij, max_self, min_self, if_true]
    ring
  · simp only [Monomial.contribution, lowerTerm, hij.ne', if_false, max_eq_left hij.le,
      min_eq_right hij.le]

variable [DecidableEq K]

theorem halfForm_assemble (cs : List (Contribution K)) (x : Nat → K) :
    halfForm id (assemble cs) x = contributed cs x := by
  have hlength : (assemble cs).length = width cs := by simp [assemble]
  rw [halfForm, sum_contributions, hlength, contributed,
    ← sum_columns _ fun c hc => column_lt_width hc]
  refine sum_congr rfl fun j hj => ?_
  have hcolumn : (assemble cs)[j]? =
      some (.ofPairs (mergeRows (cs.filter (·.column == j)))) := by
    simp [assemble, mem_range.mp hj]
  -- Neither summing equal rows nor dropping zeros changes what the column contributes.
  have hmerged := (sum_ofPairs (fun row => lowerTerm x row j) _).trans
    (sum_mergeRows (fun row => lowerTerm x row j) (cs.filter (·.column == j)))
  rw [hcolumn, Option.getD_some]
  simp only [id, Nat.zero_add]
  rw [hmerged]
  refine congrArg List.sum (List.map_congr_left fun c hc => ?_)
  have hj : c.column = j := by simpa using (List.mem_filter.mp hc).2
  rw [hj]

theorem halfForm_add [CharZero K] (columns : List (SparseVec K)) (terms : List (Monomial K))
    (x : Nat → K) : halfForm id (add columns terms) x =
      halfForm id columns x + (terms.map fun t => t.coefficient * (x t.i * x t.j)).sum := by
  have hperm := List.mergeSort_perm
    (contributions 0 columns ++ terms.map Monomial.contribution) before
  rw [add, halfForm_assemble, contributed, (hperm.map _).sum_eq, List.map_append, List.sum_append,
    List.map_map]
  exact congrArg _ (congrArg List.sum
    (List.map_congr_left fun t _ => contribution_term t x))

end Sums
end Hessian

/-! ## Batches -/

section Batches

variable [Zero α] [BEq α] [Add α] [Mul α] [OfNat α 2]

/-- The objective with one batch of monomials after the other added. -/
def Objective.addBatches (o : Objective α) (batches : List (List (Monomial α))) : Objective α :=
  batches.foldl addQuadratic o

theorem Objective.addBatches_eq (o : Objective α) (batches : List (List (Monomial α))) :
    o.addBatches batches = { o with hessian := batches.foldl Hessian.add o.hessian } := by
  induction batches generalizing o with
  | nil => rfl
  | cons terms rest ih => exact ih (o.addQuadratic terms)

theorem Hessian.foldl_add_lowerTriangle {n : Nat} {columns : List (SparseVec α)}
    {batches : List (List (Monomial α))} (hcolumns : LowerTriangle n columns)
    (hbatches : ∀ terms ∈ batches, ∀ t ∈ terms, t.i < n ∧ t.j < n) :
    LowerTriangle n (batches.foldl add columns) := by
  induction batches generalizing columns with
  | nil => exact hcolumns
  | cons terms rest ih =>
    obtain ⟨hterms,hrest⟩ := List.forall_mem_cons.mp hbatches
    exact ih (add_lowerTriangle hcolumns hterms) hrest

end Batches

theorem Hessian.halfForm_foldl_add {K : Type} [Field K] [CharZero K] [DecidableEq K]
    (columns : List (SparseVec K)) (batches : List (List (Monomial K))) (x : Nat → K) :
    halfForm id (batches.foldl add columns) x = halfForm id columns x +
      (batches.flatten.map fun t => t.coefficient * (x t.i * x t.j)).sum := by
  induction batches generalizing columns with
  | nil => simp
  | cons terms rest ih =>
    rw [List.foldl_cons, ih, halfForm_add, List.flatten_cons, List.map_append, List.sum_append,
      add_assoc]

/-! ## Flattening -/

theorem Objective.flattenHessian_lowerTriangle {o : Objective α} {n : Nat}
    (h : Hessian.LowerTriangle n o.hessian) : ∃ hessian, o.flattenHessian n = .ok hessian := by
  cases hquad : o.isQuadratic with
  | false => exact ⟨none,flattenHessian_eq_ok_iff.mpr (.inl ⟨hquad,rfl⟩)⟩
  | true =>
    -- A column beyond the stored ones is empty.
    have hcolumn : ∀ (j : Nat) (column : SparseVec α), (o.columns n)[j]? = some column →
        column.fault? n = none ∧ ∀ row ∈ column.indices, j ≤ row := by
      intro j column hcolumn
      have hj : j < n := by
        obtain ⟨hlt,-⟩ := List.getElem?_eq_some_iff.mp hcolumn
        rwa [columns_length h.width] at hlt
      rw [columns_getElem? hj, Option.some.injEq] at hcolumn
      cases hstored : o.hessian[j]? with
      | none =>
        rw [hstored, Option.getD_none] at hcolumn
        subst hcolumn
        exact ⟨SparseVec.empty_fault? n,nofun⟩
      | some stored =>
        rw [hstored, Option.getD_some] at hcolumn
        subst hcolumn
        exact h.valid j stored hstored
    refine ⟨_,flattenHessian_eq_ok_iff.mpr (.inr ⟨hquad,h.width,?_,?_,rfl⟩)⟩
    · intro column hmem
      obtain ⟨j,hj⟩ := List.mem_iff_getElem?.mp hmem
      exact (hcolumn j column hj).1
    · rw [firstAboveDiagonal_eq_none_iff]
      intro j column hj
      rw [Nat.zero_add]
      exact (hcolumn j column hj).2

namespace Model

/-- The model with the monomials of all batches added to an objective. -/
def withTerms [Zero α] [BEq α] [Add α] [Mul α] [OfNat α 2] (m : Model α) (o : Objective α)
    (batches : List (List (Monomial α))) : Model α :=
  { m with objective := some (o.addBatches batches) }

/-- Nothing is wrong with the rows, the objective has no Hessian yet, and the monomials are in the
variables of the model. -/
structure TakesTerms (m : Model α) (o : Objective α) (batches : List (List (Monomial α))) :
    Prop where
  linear : o.hessian = []
  weights : o.weights.fault? m.vars.length = none
  rows : ∀ c ∈ m.constraints, c.weights.fault? m.vars.length = none
  terms : ∀ terms ∈ batches, ∀ t ∈ terms, t.i < m.vars.length ∧ t.j < m.vars.length

theorem withTerms_flatten [Zero α] [BEq α] [Add α] [Mul α] [OfNat α 2] {m : Model α}
    {o : Objective α} {batches : List (List (Monomial α))} (h : m.TakesTerms o batches) :
    ∃ f, (m.withTerms o batches).flatten = .ok f := by
  have htriangle : Hessian.LowerTriangle m.vars.length (o.addBatches batches).hessian := by
    rw [Objective.addBatches_eq, h.linear]
    exact Hessian.foldl_add_lowerTriangle (Hessian.empty_lowerTriangle _) h.terms
  obtain ⟨hessian,hhessian⟩ := Objective.flattenHessian_lowerTriangle htriangle
  have hweights : (o.addBatches batches).weights.fault? m.vars.length = none := by
    rw [Objective.addBatches_eq]
    exact h.weights
  exact ⟨_,(flatten_eq_ok_iff_of_some rfl).mpr ⟨hessian,hhessian,hweights,h.rows,rfl⟩⟩

theorem withTerms_halfForm {K : Type} [Field K] [CharZero K] [DecidableEq K] {m : Model K}
    {o : Objective K} {batches : List (List (Monomial K))} (h : m.TakesTerms o batches)
    {f : FlatModel K} (hf : (m.withTerms o batches).flatten = .ok f) (x : Nat → K) :
    f.halfForm id x = (batches.flatten.map fun t => t.coefficient * (x t.i * x t.j)).sum := by
  have hnone : Hessian.halfForm id ([] : List (SparseVec K)) x = 0 := rfl
  rw [flatten_halfForm id rfl hf, Objective.addBatches_eq, Hessian.halfForm_foldl_add, h.linear,
    hnone, zero_add]

/-- Quadratic terms keep their meaning. A model takes monomials in any number of batches and is
flattened afterwards, with doubles as well as with exact numbers; and with exact numbers the flat
Hessian stands for the sum of all the monomials. -/
theorem flatten_keeps_terms :
    (∀ (m : Model Float) (o : Objective Float) (batches : List (List (Monomial Float))),
      m.TakesTerms o batches → ∃ f, (m.withTerms o batches).flatten = .ok f) ∧
    ∀ (K : Type) [Field K] [CharZero K] [DecidableEq K] (m : Model K) (o : Objective K)
      (batches : List (List (Monomial K))), m.TakesTerms o batches →
      ∃ f, (m.withTerms o batches).flatten = .ok f ∧ ∀ x : Nat → K,
        f.halfForm id x = (batches.flatten.map fun t => t.coefficient * (x t.i * x t.j)).sum := by
  constructor
  · intro m o batches h
    exact withTerms_flatten h
  · intro K _ _ _ m o batches h
    obtain ⟨f,hf⟩ := withTerms_flatten h
    exact ⟨f,hf,fun x => withTerms_halfForm h hf x⟩

/-- A square completed in two batches, with one product given in both orders. -/
theorem flatten_keeps_terms_square :
    let o : Objective ℚ := ⟨false,⟨[0],[1]⟩,0,[]⟩
    let m : Model ℚ := ⟨none,[⟨none,.continuous,0,4⟩,⟨none,.continuous,0,4⟩],[⟨⟨[1],[5]⟩,0,7⟩]⟩
    let batches : List (List (Monomial ℚ)) := [[⟨0,0,1⟩,⟨1,0,3⟩],[⟨0,1,1⟩,⟨1,1,4⟩]]
    m.TakesTerms o batches ∧ ∃ f, (m.withTerms o batches).flatten = .ok f ∧
      ∀ x, f.halfForm id x = (x 0 + 2 * x 1) ^ 2 := by
  intro o m batches
  have htakes : m.TakesTerms o batches := ⟨rfl,by decide,by decide,by decide⟩
  obtain ⟨f,hf,hvalue⟩ := flatten_keeps_terms.2 ℚ m o batches htakes
  refine ⟨htakes,f,hf,fun x => ?_⟩
  rw [hvalue]
  simp only [batches, List.flatten_cons, List.flatten_nil, List.cons_append, List.nil_append,
    List.map_cons, List.map_nil, List.sum_cons, List.sum_nil]
  ring

end Model
end SolverSession
