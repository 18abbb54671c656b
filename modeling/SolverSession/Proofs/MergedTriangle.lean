import SolverSession.Proofs.Doubles
import SolverSession.Proofs.QuadraticTerms

/-!
# What is stored where

Adding monomials to a Hessian is described place by place: what was stored at a place and what the
monomials add there, one after the other, is summed from left to right, and the sum is stored unless
it is zero. This determines all columns, so monomials at different places may change their order,
and the two variables of a monomial theirs.
-/
namespace SolverSession

variable {α : Type}

/-! ## Sums -/

/-- The sum from left to right, if there is anything to sum. -/
def total? [Add α] : List α → Option α
  | [] => none
  | x :: rest => some (rest.foldl (· + ·) x)

/-- What is stored for a sum: nothing if it is zero. -/
def stored? [Zero α] [BEq α] [Add α] (summands : List α) : Option α :=
  (total? summands).filter fun sum => !(sum == 0)

namespace SparseVec

theorem ext_get? {v w : SparseVec α} (hv : v.indices.length = v.values.length)
    (hw : w.indices.length = w.values.length) (hvs : v.indices.Pairwise (· < ·))
    (hws : w.indices.Pairwise (· < ·)) (h : ∀ i, v.get? i = w.get? i) : v = w := by
  have hentries : v.entries = w.entries := by
    refine eq_of_lookup_eq ?_ ?_ h
    · rwa [← List.pairwise_map (f := Prod.fst), entries_keys hv]
    · rwa [← List.pairwise_map (f := Prod.fst), entries_keys hw]
  have hindices : v.indices = w.indices := by
    rw [← entries_keys hv, hentries, entries_keys hw]
  have hvalues : v.values = w.values := by
    rw [← List.map_snd_zip (Nat.le_of_eq hv.symm), ← List.map_snd_zip (Nat.le_of_eq hw.symm)]
    exact congrArg (List.map Prod.snd) hentries
  cases v
  cases w
  cases hindices
  cases hvalues
  rfl

end SparseVec

/-! ## Places -/

/-- The monomial is a product of variables `p` and `q`, the smaller one first. -/
def Monomial.isAt (t : Monomial α) (p q : Nat) : Bool := min t.i t.j == p && max t.i t.j == q

def Monomial.swap (t : Monomial α) : Monomial α := ⟨t.j,t.i,t.coefficient⟩

namespace Hessian

/-- The values stored at a place, in the order in which they are stored. -/
def storedAt (columns : List (SparseVec α)) (p q : Nat) : List α :=
  ((columns[p]?.getD .empty).entries.filter (·.1 == q)).map (·.2)

/-- What the monomials add at a place, in their order. -/
def addedAt [Mul α] [OfNat α 2] (terms : List (Monomial α)) (p q : Nat) : List α :=
  (terms.filter (·.isAt p q)).map fun t => if t.i = t.j then 2*t.coefficient else t.coefficient

def summands [Mul α] [OfNat α 2] (columns : List (SparseVec α)) (terms : List (Monomial α))
    (p q : Nat) : List α :=
  storedAt columns p q ++ addedAt terms p q

/-- The columns hold the sums of what belongs to each place, each column in order of its rows and
without a zero, and the last column is the last one that anything belongs to. -/
structure Merged [Zero α] [BEq α] [Add α] (summands : Nat → Nat → List α)
    (columns : List (SparseVec α)) : Prop where
  entry : ∀ p q, (columns[p]?.getD .empty).get? q = stored? (summands p q)
  parallel : ∀ column ∈ columns, column.indices.length = column.values.length
  increasing : ∀ column ∈ columns, column.indices.Pairwise (· < ·)
  covered : ∀ p q, summands p q ≠ [] → p < columns.length
  last : ∀ p, columns.length = p+1 → ∃ q, summands p q ≠ []

def valuesAt (cs : List (Contribution α)) (p q : Nat) : List α :=
  (cs.filter fun c => c.column == p && c.row == q).map (·.value)

theorem valuesAt_append (cs ds : List (Contribution α)) (p q : Nat) :
    valuesAt (cs ++ ds) p q = valuesAt cs p q ++ valuesAt ds p q := by
  simp [valuesAt]

theorem valuesAt_ne_nil_iff {cs : List (Contribution α)} {p q : Nat} :
    valuesAt cs p q ≠ [] ↔ ∃ c ∈ cs, c.column = p ∧ c.row = q := by
  simp [valuesAt]

theorem valuesAt_contributions (k : Nat) (columns : List (SparseVec α)) (p q : Nat) :
    valuesAt (contributions k columns) (k+p) q = storedAt columns p q := by
  induction columns generalizing k p with
  | nil => rfl
  | cons column rest ih =>
    rw [contributions, valuesAt_append]
    cases p with
    | zero =>
      -- The further columns have larger numbers.
      have hrest : valuesAt (contributions (k+1) rest) (k+0) q = [] := by
        by_contra hne
        obtain ⟨c,hc,hcolumn,-⟩ := valuesAt_ne_nil_iff.mp hne
        obtain ⟨j,-,-,hj,-⟩ := mem_contributions hc
        omega
      rw [hrest, List.append_nil]
      simp [valuesAt, storedAt, List.filter_map, Function.comp_def]
    | succ p =>
      have hfirst : valuesAt (column.entries.map fun e => (⟨k,e.1,e.2⟩ : Contribution α))
          (k+(p+1)) q = [] := by
        by_contra hne
        obtain ⟨c,hc,hcolumn,-⟩ := valuesAt_ne_nil_iff.mp hne
        obtain ⟨e,-,rfl⟩ := List.mem_map.mp hc
        dsimp only at hcolumn
        omega
      have hnext := ih (k+1) p
      rw [hfirst, List.nil_append, ← Nat.add_assoc, Nat.add_right_comm, hnext]
      rfl

theorem valuesAt_terms [Mul α] [OfNat α 2] (terms : List (Monomial α)) (p q : Nat) :
    valuesAt (terms.map Monomial.contribution) p q = addedAt terms p q := by
  simp [valuesAt, addedAt, List.filter_map, Function.comp_def, Monomial.contribution, Monomial.isAt]

theorem valuesAt_sorted (cs : List (Contribution α)) (p q : Nat) :
    valuesAt (cs.mergeSort before) p q = valuesAt cs p q := by
  let here : Contribution α → Bool := fun c => c.column == p && c.row == q
  -- Contributions to one place come in order whatever their order, so none overtakes another.
  have hordered : (cs.filter here).Pairwise fun a b => before a b = true := by
    refine List.pairwise_of_forall_mem_list ?_
    intro a ha b hb
    have hpa : a.column = p ∧ a.row = q := by simpa [here] using (List.mem_filter.mp ha).2
    have hpb : b.column = p ∧ b.row = q := by simpa [here] using (List.mem_filter.mp hb).2
    rw [before_iff]
    omega
  have hsub : (cs.filter here).Sublist (cs.mergeSort before) :=
    List.sublist_mergeSort before_trans before_total hordered List.filter_sublist
  have hboth : (cs.filter here).Sublist ((cs.mergeSort before).filter here) := by
    have hfiltered := hsub.filter here
    rwa [List.filter_filter, funext fun c => Bool.and_self (here c)] at hfiltered
  have hlength : (cs.filter here).length = ((cs.mergeSort before).filter here).length :=
    ((List.mergeSort_perm cs before).filter here).length_eq.symm
  exact congrArg (List.map Contribution.value) (hboth.eq_of_length hlength).symm

/-! ## Merged columns -/

section Merge

variable [Add α]

def valuesIn (cs : List (Contribution α)) (q : Nat) : List α :=
  (cs.filter (·.row == q)).map (·.value)

theorem lookup_mergeRun {row : Nat} {sum : α} {cs : List (Contribution α)}
    (hrow : ∀ c ∈ cs, row ≤ c.row) (hcs : cs.Pairwise fun a b => a.row ≤ b.row) (q : Nat) :
    (mergeRun row sum cs).lookup q =
      if q = row then some ((valuesIn cs q).foldl (· + ·) sum) else total? (valuesIn cs q) := by
  induction cs generalizing row sum with
  | nil =>
    by_cases hq : q = row
    · subst hq
      simp [mergeRun, valuesIn]
    · rw [mergeRun, lookup_cons_of_ne hq, if_neg hq]
      rfl
  | cons c rest ih =>
    obtain ⟨hc,hrest⟩ := List.forall_mem_cons.mp hrow
    obtain ⟨hfirst,hcs⟩ := List.pairwise_cons.mp hcs
    by_cases heq : c.row = row
    · rw [mergeRun, if_pos heq, ih hrest hcs]
      by_cases hq : q = row
      · subst hq
        simp [valuesIn, heq]
      · have hne : c.row ≠ q := fun h => hq (h.symm.trans heq)
        simp [valuesIn, hq, hne]
    · rw [mergeRun, if_neg heq]
      by_cases hq : q = row
      · -- The row is finished: those that follow are larger.
        subst hq
        have hnone : valuesIn (c :: rest) q = [] := by
          simp only [valuesIn, List.map_eq_nil_iff, List.filter_eq_nil_iff, List.forall_mem_cons,
            beq_iff_eq]
          refine ⟨heq,fun d hd => ?_⟩
          have hlow := hfirst d hd
          omega
        rw [List.lookup_cons_self, if_pos rfl, hnone]
        rfl
      · rw [lookup_cons_of_ne hq, ih hfirst hcs, if_neg hq]
        by_cases hcq : c.row = q
        · subst hcq
          simp [valuesIn, total?]
        · have hne : q ≠ c.row := fun h => hcq h.symm
          simp [valuesIn, hcq, hne]

theorem lookup_mergeRows {cs : List (Contribution α)}
    (hcs : cs.Pairwise fun a b => a.row ≤ b.row) (q : Nat) :
    (mergeRows cs).lookup q = total? (valuesIn cs q) := by
  cases cs with
  | nil => rfl
  | cons c rest =>
    obtain ⟨hfirst,hrest⟩ := List.pairwise_cons.mp hcs
    rw [mergeRows, lookup_mergeRun hfirst hrest]
    by_cases hq : q = c.row
    · subst hq
      simp [valuesIn, total?]
    · have hne : c.row ≠ q := fun h => hq h.symm
      simp [valuesIn, hq, hne]

end Merge

section Add

variable [Zero α] [BEq α] [Add α] {cs : List (Contribution α)}

theorem assemble_parallel :
    ∀ column ∈ assemble cs, column.indices.length = column.values.length := by
  intro column hcolumn
  obtain ⟨j,-,rfl⟩ := List.mem_map.mp hcolumn
  simp [SparseVec.ofPairs, SparseVec.compress, SparseVec.ofEntries]

theorem assemble_increasing (hsorted : cs.Pairwise fun a b => before a b = true) :
    ∀ column ∈ assemble cs, column.indices.Pairwise (· < ·) := by
  intro column hcolumn
  obtain ⟨j,-,rfl⟩ := List.mem_map.mp hcolumn
  rw [SparseVec.indices_ofPairs]
  exact (mergeRows_increasing (rows_ordered hsorted j)).sublist (List.filter_sublist.map Prod.fst)

theorem assemble_get? (hsorted : cs.Pairwise fun a b => before a b = true) (p q : Nat) :
    ((assemble cs)[p]?.getD .empty).get? q = stored? (valuesAt cs p q) := by
  have hvalues : valuesIn (cs.filter (·.column == p)) q = valuesAt cs p q := by
    simp only [valuesIn, valuesAt, List.filter_filter, Bool.and_comm]
  by_cases hp : p < width cs
  · have hrows := rows_ordered hsorted p
    have hkeys := (mergeRows_increasing hrows).imp Nat.ne_of_lt
    have hcolumn : (assemble cs)[p]? =
        some (.ofPairs (mergeRows (cs.filter (·.column == p)))) := by
      simp [assemble, hp]
    rw [hcolumn, Option.getD_some, SparseVec.get?, SparseVec.entries_ofPairs,
      lookup_filter (fun x => !(x == 0)) hkeys, lookup_mergeRows hrows, hvalues, stored?]
  · have hnone : valuesAt cs p q = [] := by
      by_contra hne
      obtain ⟨c,hc,rfl,-⟩ := valuesAt_ne_nil_iff.mp hne
      exact hp (column_lt_width hc)
    have hend : (assemble cs)[p]? = none := by
      simpa [assemble] using hp
    rw [hend, hnone]
    rfl

theorem assemble_merged (hsorted : cs.Pairwise fun a b => before a b = true) :
    Merged (valuesAt cs) (assemble cs) where
  entry := assemble_get? hsorted
  parallel := assemble_parallel
  increasing := assemble_increasing hsorted
  covered := by
    intro p q hne
    obtain ⟨c,hc,rfl,-⟩ := valuesAt_ne_nil_iff.mp hne
    simpa [assemble] using column_lt_width hc
  last := by
    intro p hlength
    have hwidth : width cs = p+1 := by simpa [assemble] using hlength
    by_contra hnone
    -- Otherwise one column less would do.
    have hless : width cs ≤ p := by
      refine width_le_iff.mpr fun c hc => ?_
      have hlt := column_lt_width hc
      have hne : c.column ≠ p := by
        rintro rfl
        exact hnone ⟨c.row,valuesAt_ne_nil_iff.mpr ⟨c,hc,rfl,rfl⟩⟩
      omega
    omega

variable [Mul α] [OfNat α 2]

theorem add_merged (columns : List (SparseVec α)) (terms : List (Monomial α)) :
    Merged (summands columns terms) (add columns terms) := by
  have hplaces : valuesAt ((contributions 0 columns ++
      terms.map Monomial.contribution).mergeSort before) = summands columns terms := by
    funext p q
    have hstored := valuesAt_contributions 0 columns p q
    rw [Nat.zero_add] at hstored
    rw [valuesAt_sorted, valuesAt_append, valuesAt_terms, hstored]
    rfl
  rw [← hplaces]
  exact assemble_merged (sorted_pairwise _)

end Add

/-! ## What determines the columns -/

namespace Merged

variable [Zero α] [BEq α] [Add α] {f g : Nat → Nat → List α} {columns others : List (SparseVec α)}

theorem column_parallel (h : Merged f columns) (p : Nat) :
    (columns[p]?.getD .empty).indices.length = (columns[p]?.getD .empty).values.length := by
  cases hp : columns[p]? with
  | none => rfl
  | some column => exact h.parallel column (List.mem_of_getElem? hp)

theorem column_increasing (h : Merged f columns) (p : Nat) :
    (columns[p]?.getD .empty).indices.Pairwise (· < ·) := by
  cases hp : columns[p]? with
  | none => exact .nil
  | some column => exact h.increasing column (List.mem_of_getElem? hp)

theorem column_eq (hf : Merged f columns) (hg : Merged g others) {p : Nat}
    (h : ∀ q, stored? (f p q) = stored? (g p q)) :
    columns[p]?.getD .empty = others[p]?.getD .empty := by
  refine SparseVec.ext_get? (hf.column_parallel p) (hg.column_parallel p)
    (hf.column_increasing p) (hg.column_increasing p) fun q => ?_
  rw [hf.entry, hg.entry, h]

theorem length_le (hf : Merged f columns) (hg : Merged g others)
    (h : ∀ p q, f p q ≠ [] → g p q ≠ []) : columns.length ≤ others.length := by
  cases hlength : columns.length with
  | zero => exact Nat.zero_le _
  | succ p =>
    obtain ⟨q,hq⟩ := hf.last p hlength
    exact hg.covered p q (h p q hq)

theorem unique (hf : Merged f columns) (hg : Merged f others) : columns = others := by
  have hlength : columns.length = others.length :=
    Nat.le_antisymm (hf.length_le hg fun _ _ => id) (hg.length_le hf fun _ _ => id)
  refine List.ext_getElem hlength fun p hp hp' => ?_
  have hcolumn := hf.column_eq hg (p := p) fun _ => rfl
  simpa [hp, hp'] using hcolumn

end Merged

section Add

variable [Zero α] [BEq α] [Add α] [Mul α] [OfNat α 2]

theorem add_eq_iff {columns result : List (SparseVec α)} {terms : List (Monomial α)} :
    add columns terms = result ↔ Merged (summands columns terms) result := by
  constructor
  · rintro rfl
    exact add_merged columns terms
  · exact (add_merged columns terms).unique

theorem add_congr (columns : List (SparseVec α)) {terms others : List (Monomial α)}
    (h : ∀ p q, addedAt terms p q = addedAt others p q) :
    add columns terms = add columns others := by
  have hsummands : summands columns terms = summands columns others := by
    funext p q
    rw [summands, summands, h]
  rw [add_eq_iff, hsummands]
  exact add_merged columns others

omit [Zero α] [BEq α] [Add α] in
theorem addedAt_append (terms more : List (Monomial α)) (p q : Nat) :
    addedAt (terms ++ more) p q = addedAt terms p q ++ addedAt more p q := by
  simp [addedAt]

omit [Zero α] [BEq α] [Add α] in
theorem addedAt_swap (t : Monomial α) (terms : List (Monomial α)) (p q : Nat) :
    addedAt (t.swap :: terms) p q = addedAt (t :: terms) p q := by
  have hplace : t.swap.isAt p q = t.isAt p q := by
    simp only [Monomial.isAt, Monomial.swap, min_comm t.j, max_comm t.j]
  simp only [addedAt, List.filter_cons, hplace]
  by_cases ht : t.isAt p q = true
  · simp only [if_pos ht, List.map_cons, Monomial.swap, eq_comm (a := t.j)]
  · simp only [if_neg ht]

end Add
end Hessian

theorem stored?_eq_some_iff {values : List Float} {sum : Float} :
    stored? values = some sum ↔
      total? values = some sum ∧ (sum.isNaN = true ∨ sum ≠ 0 ∧ sum ≠ negativeZero) := by
  have hzero : (!(sum == 0)) = true ↔ sum.isNaN = true ∨ sum ≠ 0 ∧ sum ≠ negativeZero := by
    rw [Bool.not_eq_true', ← Bool.not_eq_true, beq_zero_iff, not_or]
    refine ⟨.inr,?_⟩
    rintro (hnan | hne)
    · constructor
      · rintro rfl
        revert hnan
        decide
      · rintro rfl
        revert hnan
        decide
    · exact hne
  rw [stored?, Option.filter_eq_some_iff, hzero]

/-- Adding monomials changes the Hessian alone, and the new one is determined place by place: what
was stored there and then what the monomials add is summed from left to right, and stored unless it
is one of the zeros. The factors of a monomial may be swapped, and monomials may be reordered as
long as those of one pair of variables keep their order. -/
theorem Objective.addQuadratic_merges (o : Objective Float) :
    (∀ terms result, o.addQuadratic terms = { o with hessian := result } ↔
      Hessian.Merged (Hessian.summands o.hessian terms) result) ∧
    (∀ (values : List Float) (sum : Float), stored? values = some sum ↔
      total? values = some sum ∧ (sum.isNaN = true ∨ sum ≠ 0 ∧ sum ≠ negativeZero)) ∧
    (∀ before t after,
      o.addQuadratic (before ++ t.swap :: after) = o.addQuadratic (before ++ t :: after)) ∧
    ∀ terms others : List (Monomial Float),
      (∀ p q, terms.filter (·.isAt p q) = others.filter (·.isAt p q)) →
      o.addQuadratic terms = o.addQuadratic others := by
  refine ⟨?_,fun _ _ => stored?_eq_some_iff,?_,?_⟩
  · intro terms result
    rw [← Hessian.add_eq_iff, addQuadratic]
    exact ⟨fun h => congrArg hessian h,fun h => by rw [h]⟩
  · intro before t after
    have hadd : Hessian.add o.hessian (before ++ t.swap :: after) =
        Hessian.add o.hessian (before ++ t :: after) := by
      refine Hessian.add_congr _ fun p q => ?_
      rw [Hessian.addedAt_append, Hessian.addedAt_append, Hessian.addedAt_swap]
    rw [addQuadratic, hadd, addQuadratic]
  · intro terms others h
    have hadd : Hessian.add o.hessian terms = Hessian.add o.hessian others := by
      refine Hessian.add_congr _ fun p q => ?_
      rw [Hessian.addedAt, Hessian.addedAt, h]
    rw [addQuadratic, hadd, addQuadratic]

/-- A square moves in front of two multiples of one product that cancel what is stored for it. -/
theorem Objective.addQuadratic_merges_square_first :
    let o : Objective Float := ⟨false,.empty,0,[⟨[1],[2]⟩]⟩
    let terms : List (Monomial Float) := [⟨0,1,-3⟩,⟨1,0,1⟩,⟨2,2,0.5⟩]
    let others : List (Monomial Float) := [⟨2,2,0.5⟩,⟨0,1,-3⟩,⟨1,0,1⟩]
    (∀ p q, terms.filter (·.isAt p q) = others.filter (·.isAt p q)) ∧
      o.addQuadratic terms = o.addQuadratic others := by
  intro o terms others
  have hpairs : ∀ p q, terms.filter (·.isAt p q) = others.filter (·.isAt p q) := by
    intro p q
    by_cases hp : p = 2
    · subst hp
      simp [terms, others, Monomial.isAt, List.filter_cons]
    · simp [terms, others, Monomial.isAt, List.filter_cons, Ne.symm hp]
  exact ⟨hpairs,(addQuadratic_merges o).2.2.2 terms others hpairs⟩

end SolverSession
