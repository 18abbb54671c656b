import SolverSession.Proofs.MergedTriangle

/-!
# Monomials in one batch or several

Between two batches a sum that is zero is dropped, and with it its sign; the next batch starts anew
there. A zero does not show in a sum, so the columns are those of one batch with all monomials,
except that empty columns at the end may be missing.
-/
namespace SolverSession

variable {α : Type}

/-- A zero does not show in a sum. -/
structure AddsZeros (α : Type) [Zero α] [BEq α] [Add α] : Prop where
  zero_add : ∀ z x : α, (z == 0) = true → (x == 0) = false → z + x = x
  zero_add_zero : ∀ z w : α, (z == 0) = true → (w == 0) = true → (z + w == 0) = true

theorem float_addsZeros : AddsZeros Float :=
  ⟨fun _ _ => zero_add_of_ne_zero,fun _ _ => zero_add_zero_beq⟩

/-! ## Missing columns -/

theorem Hessian.eq_append_empty {columns longer : List (SparseVec α)}
    (hlength : columns.length ≤ longer.length)
    (h : ∀ p : Nat, columns[p]?.getD SparseVec.empty = longer[p]?.getD SparseVec.empty) :
    ∃ n, longer = columns ++ List.replicate n SparseVec.empty := by
  refine ⟨longer.length-columns.length,List.ext_getElem (by simp; omega) fun p hp hp' => ?_⟩
  -- Where there is no column the other list has an empty one.
  have hcolumn := h p
  rw [List.getElem?_eq_getElem hp, Option.getD_some] at hcolumn
  by_cases hshort : p < columns.length
  · rw [List.getElem_append_left hshort, ← hcolumn, List.getElem?_eq_getElem hshort]
    rfl
  · have hnone : columns[p]? = none := List.getElem?_eq_none (Nat.le_of_not_lt hshort)
    rw [List.getElem_append_right (Nat.le_of_not_lt hshort), List.getElem_replicate, ← hcolumn,
      hnone]
    rfl

theorem Hessian.storedAt_append_empty (columns : List (SparseVec α)) (n p q : Nat) :
    storedAt (columns ++ List.replicate n SparseVec.empty) p q = storedAt columns p q := by
  have hcolumn : (columns ++ List.replicate n SparseVec.empty)[p]?.getD SparseVec.empty =
      columns[p]?.getD SparseVec.empty := by
    by_cases hp : p < columns.length
    · rw [List.getElem?_append_left hp]
    · have hnone : columns[p]? = none := List.getElem?_eq_none (Nat.le_of_not_lt hp)
      rw [List.getElem?_append_right (Nat.le_of_not_lt hp), hnone, List.getElem?_replicate]
      split <;> rfl
  rw [storedAt, storedAt, hcolumn]

/-! ## Sums that start anew -/

section Sums

variable [Zero α] [BEq α] [Add α]

/-- What is stored for a sum that starts with a given value. -/
def continued? (start : α) (summands : List α) : Option α :=
  (some (summands.foldl (· + ·) start)).filter fun sum => !(sum == 0)

theorem stored?_cons (x : α) (rest : List α) : stored? (x :: rest) = continued? x rest := rfl

theorem continued?_cons (start x : α) (rest : List α) :
    continued? start (x :: rest) = continued? (start+x) rest := rfl

theorem continued?_append (start : α) (summands more : List α) :
    continued? start (summands ++ more) = continued? (summands.foldl (· + ·) start) more := by
  rw [continued?, List.foldl_append]
  rfl

theorem continued?_nil {z : α} (hz : (z == 0) = true) : continued? z [] = none := by
  rw [continued?, List.foldl_nil, Option.filter_some, hz]
  rfl

/-- It does not matter with which zero a sum starts. -/
theorem continued?_zero (laws : AddsZeros α) {z w : α} (hz : (z == 0) = true)
    (hw : (w == 0) = true) (summands : List α) :
    continued? z summands = continued? w summands := by
  induction summands generalizing z w with
  | nil => rw [continued?_nil hz, continued?_nil hw]
  | cons x rest ih =>
    rw [continued?_cons, continued?_cons]
    -- The first summand that is not zero takes the place of either zero.
    cases hx : x == 0 with
    | true => exact ih (laws.zero_add_zero z x hz hx) (laws.zero_add_zero w x hw hx)
    | false => rw [laws.zero_add z x hz hx, laws.zero_add w x hw hx]

theorem stored?_eq_continued? (laws : AddsZeros α) {z : α} (hz : (z == 0) = true)
    (summands : List α) : stored? summands = continued? z summands := by
  cases summands with
  | nil => exact (continued?_nil hz).symm
  | cons x rest =>
    rw [stored?_cons, continued?_cons]
    cases hx : x == 0 with
    | true => exact continued?_zero laws hx (laws.zero_add_zero z x hz hx) rest
    | false => rw [laws.zero_add z x hz hx]

/-- What is stored for a sum takes its place, be it dropped or not. -/
theorem stored?_resumed (laws : AddsZeros α) (summands more : List α) :
    stored? ((stored? summands).toList ++ more) = stored? (summands ++ more) := by
  cases summands with
  | nil => rfl
  | cons x rest =>
    -- A sum that was kept goes on, and one that was dropped was a zero.
    rw [List.cons_append, stored?_cons, stored?_cons, continued?_append, continued?]
    cases hsum : rest.foldl (· + ·) x == 0 with
    | true =>
      rw [Option.filter_some, hsum]
      exact stored?_eq_continued? laws hsum more
    | false =>
      rw [Option.filter_some, hsum]
      exact stored?_cons _ more

end Sums

namespace Hessian

/-! ## Two batches -/

variable [Zero α] [BEq α] [Add α]

theorem Merged.storedAt_eq {f : Nat → Nat → List α} {columns : List (SparseVec α)}
    (h : Merged f columns) (p q : Nat) : storedAt columns p q = (stored? (f p q)).toList := by
  have hkeys : ((columns[p]?.getD .empty).entries.map (·.1)).Nodup := by
    rw [SparseVec.entries_keys (h.column_parallel p)]
    exact (h.column_increasing p).imp Nat.ne_of_lt
  rw [← h.entry]
  exact values_eq_lookup hkeys q

variable [Mul α] [OfNat α 2]

theorem stored?_in_batches (laws : AddsZeros α) (columns : List (SparseVec α))
    (terms more : List (Monomial α)) (p q : Nat) :
    stored? (summands (add columns terms) more p q) =
      stored? (summands columns (terms ++ more) p q) := by
  rw [summands, (add_merged columns terms).storedAt_eq, stored?_resumed laws, summands, summands,
    addedAt_append, List.append_assoc]

theorem summands_in_batches {columns : List (SparseVec α)} {terms more : List (Monomial α)}
    {p q : Nat} (h : summands (add columns terms) more p q ≠ []) :
    summands columns (terms ++ more) p q ≠ [] := by
  rw [summands, (add_merged columns terms).storedAt_eq] at h
  rw [summands, addedAt_append, ← List.append_assoc]
  intro hnone
  obtain ⟨hterms,hmore⟩ := List.append_eq_nil_iff.mp hnone
  change summands columns terms p q = [] at hterms
  rw [hterms, hmore] at h
  exact h rfl

theorem add_column_in_batches (laws : AddsZeros α) (columns : List (SparseVec α))
    (terms more : List (Monomial α)) (p : Nat) :
    (add (add columns terms) more)[p]?.getD .empty =
      (add columns (terms ++ more))[p]?.getD .empty :=
  (add_merged _ more).column_eq (add_merged columns _)
    (stored?_in_batches laws columns terms more p)

theorem add_in_batches (laws : AddsZeros α) (columns : List (SparseVec α))
    (terms more : List (Monomial α)) :
    ∃ n, add columns (terms ++ more) =
      add (add columns terms) more ++ List.replicate n SparseVec.empty :=
  eq_append_empty
    ((add_merged _ more).length_le (add_merged columns _) fun _ _ => summands_in_batches)
    (add_column_in_batches laws columns terms more)

/-! ## Several batches -/

theorem add_append_empty (columns : List (SparseVec α)) (n : Nat) (terms : List (Monomial α)) :
    add (columns ++ List.replicate n SparseVec.empty) terms = add columns terms := by
  have hsummands : summands (columns ++ List.replicate n SparseVec.empty) terms =
      summands columns terms := by
    funext p q
    rw [summands, summands, storedAt_append_empty]
  rw [add_eq_iff, hsummands]
  exact add_merged columns terms

theorem foldl_add_append_empty (columns : List (SparseVec α)) (n : Nat)
    (batches : List (List (Monomial α))) :
    ∃ k, batches.foldl add (columns ++ List.replicate n SparseVec.empty) =
      batches.foldl add columns ++ List.replicate k SparseVec.empty := by
  cases batches with
  | nil => exact ⟨n,rfl⟩
  | cons terms rest =>
    rw [List.foldl_cons, List.foldl_cons, add_append_empty]
    exact ⟨0,(List.append_nil _).symm⟩

theorem foldl_add_in_batches (laws : AddsZeros α) (columns : List (SparseVec α))
    (terms : List (Monomial α)) (batches : List (List (Monomial α))) :
    ∃ n, add columns (terms ++ batches.flatten) =
      batches.foldl add (add columns terms) ++ List.replicate n SparseVec.empty := by
  induction batches generalizing terms with
  | nil => exact ⟨0,by simp⟩
  | cons more rest ih =>
    -- The second batch joins the first one, and the further batches join both.
    obtain ⟨n,hn⟩ := add_in_batches laws columns terms more
    obtain ⟨k,hk⟩ := ih (terms ++ more)
    obtain ⟨m,hm⟩ := foldl_add_append_empty (add (add columns terms) more) n rest
    refine ⟨m+k,?_⟩
    rw [List.flatten_cons, ← List.append_assoc, hk, hn, hm, List.append_assoc,
      List.replicate_append_replicate, List.foldl_cons]

end Hessian

namespace Objective

variable [Zero α] [BEq α] [Add α] [Mul α] [OfNat α 2]

/-- Monomials may be added in one batch or in two: the columns are the same, where a missing one
counts as empty, and what one batch stores beyond two are empty columns at the end. The same holds
of any number of batches after a first one. -/
theorem addQuadratic_in_batches (laws : AddsZeros α) (o : Objective α)
    (terms : List (Monomial α)) :
    (∀ more, (∀ p : Nat,
        ((o.addQuadratic terms).addQuadratic more).hessian[p]?.getD SparseVec.empty =
          (o.addQuadratic (terms ++ more)).hessian[p]?.getD SparseVec.empty) ∧
      ∃ n, (o.addQuadratic (terms ++ more)).hessian =
        ((o.addQuadratic terms).addQuadratic more).hessian ++ List.replicate n SparseVec.empty) ∧
    ∀ batches, ∃ n, (o.addQuadratic (terms ++ batches.flatten)).hessian =
      ((o.addQuadratic terms).addBatches batches).hessian ++ List.replicate n SparseVec.empty := by
  constructor
  · intro more
    exact ⟨Hessian.add_column_in_batches laws o.hessian terms more,
      Hessian.add_in_batches laws o.hessian terms more⟩
  · intro batches
    rw [addBatches_eq]
    exact Hessian.foldl_add_in_batches laws o.hessian terms batches

end Objective

/-- The first batch cancels what is stored for a product and adds a square of coefficient zero. -/
theorem Objective.addQuadratic_in_batches_cancelled :
    let o : Objective Float := ⟨false,.empty,0,[⟨[1],[2]⟩]⟩
    let terms : List (Monomial Float) := [⟨0,1,-2⟩,⟨2,2,0⟩]
    let more : List (Monomial Float) := [⟨1,0,5⟩]
    let first := (o.addQuadratic terms).hessian
    let second := ((o.addQuadratic terms).addQuadratic more).hessian
    AddsZeros Float ∧ (first[0]?.getD SparseVec.empty).get? 1 = none ∧
      (second[0]?.getD SparseVec.empty).get? 1 = some 5 := by
  intro o terms more first second
  refine ⟨float_addsZeros,?_,?_⟩
  · exact ((Hessian.add_merged o.hessian terms).entry 0 1).trans (by decide +kernel)
  · have hcolumn := ((addQuadratic_in_batches float_addsZeros o terms).1 more).1 0
    rw [hcolumn]
    exact ((Hessian.add_merged o.hessian (terms ++ more)).entry 0 1).trans (by decide +kernel)

end SolverSession
