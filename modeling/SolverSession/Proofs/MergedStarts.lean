import SolverSession.Proofs.VisibleStart

/-!
# Starts one after the other

A solution that takes over several starts in turn is the solution that takes over one: the start
with every list in the last version supplied. A list counts as supplied also when it is empty, and
the dual part is there as soon as one of its two lists is.
-/
namespace SolverSession

namespace WarmStart

/-- The later start, with the lists it leaves out taken from the earlier one. -/
def merge (earlier later : WarmStart) : WarmStart where
  primalCols := later.primalCols.or earlier.primalCols
  primalRows := later.primalRows.or earlier.primalRows
  dualCols := later.dualCols.or earlier.dualCols
  dualRows := later.dualRows.or earlier.dualRows

/-- Every list in the last version that one of the starts supplies. -/
def lastSupplied (starts : List WarmStart) : WarmStart where
  primalCols := (starts.filterMap (·.primalCols)).getLast?
  primalRows := (starts.filterMap (·.primalRows)).getLast?
  dualCols := (starts.filterMap (·.dualCols)).getLast?
  dualRows := (starts.filterMap (·.dualRows)).getLast?

theorem ext_get {a b : WarmStart} (h : ∀ field, a.get field = b.get field) : a = b := by
  obtain ⟨_,_,_,_⟩ := a
  obtain ⟨_,_,_,_⟩ := b
  simpa [get] using And.intro (h .primalCols)
    (And.intro (h .primalRows) (And.intro (h .dualCols) (h .dualRows)))

theorem merge_get (a b : WarmStart) (field : StartField) :
    (a.merge b).get field = (b.get field).or (a.get field) := by
  cases field <;> rfl

theorem lastSupplied_get (starts : List WarmStart) (field : StartField) :
    (lastSupplied starts).get field = (starts.filterMap (·.get field)).getLast? := by
  cases field <;> rfl

theorem lastSupplied_append (starts more : List WarmStart) :
    lastSupplied (starts ++ more) = (lastSupplied starts).merge (lastSupplied more) := by
  apply ext_get
  intro field
  rw [merge_get, lastSupplied_get, lastSupplied_get, lastSupplied_get, List.filterMap_append,
    List.getLast?_append]

theorem lastSupplied_singleton (start : WarmStart) : lastSupplied [start] = start := by
  apply ext_get
  intro field
  rw [lastSupplied_get]
  cases h : start.get field <;> simp [h]

theorem merge_self (a : WarmStart) : a.merge a = a := by
  apply ext_get
  intro field
  rw [merge_get, Option.or_self]

theorem merge_comm {a b : WarmStart} (h : ∀ field, a.get field = none ∨ b.get field = none) :
    a.merge b = b.merge a := by
  apply ext_get
  intro field
  rw [merge_get, merge_get]
  rcases h field with ha | hb
  · rw [ha, Option.or_none, Option.none_or]
  · rw [hb, Option.or_none, Option.none_or]

theorem eq_empty {start : WarmStart} (h : ∀ field, start.get field = none) : start = .empty := by
  apply ext_get
  intro field
  rw [h]
  cases field <;> rfl

theorem suppliesPrimal_merge (a b : WarmStart) :
    (a.merge b).suppliesPrimal = (a.suppliesPrimal || b.suppliesPrimal) := by
  simp only [suppliesPrimal, merge, Option.isSome_or]
  ac_rfl

theorem suppliesDual_merge (a b : WarmStart) :
    (a.merge b).suppliesDual = (a.suppliesDual || b.suppliesDual) := by
  simp only [suppliesDual, merge, Option.isSome_or]
  ac_rfl

end WarmStart

theorem PointValues.overwrite_overwrite (v : PointValues)
    (vars vars' constraints constraints' : Option (List Float)) :
    (v.overwrite vars constraints).overwrite vars' constraints' =
      v.overwrite (vars'.or vars) (constraints'.or constraints) := by
  cases vars' <;> cases constraints' <;> rfl

namespace Solution

theorem applyStart_empty (x : Solution) : x.applyStart .empty = x := by
  obtain ⟨value,dual,_,_⟩ := x
  simp [applyStart, WarmStart.empty, WarmStart.suppliesPrimal, WarmStart.suppliesDual,
    PointValues.overwrite]

theorem applyStart_dual_of_supplied {x : Solution} {start : WarmStart}
    (h : start.suppliesDual = true) : (x.applyStart start).dual =
      some ((x.dual.getD .empty).overwrite start.dualCols start.dualRows) := by
  simp [applyStart, h]

theorem applyStart_merge_dual (x : Solution) (a b : WarmStart) :
    (x.applyStart (a.merge b)).dual = ((x.applyStart a).applyStart b).dual := by
  by_cases ha : a.suppliesDual = true
  case pos =>
    -- The first start has made sure that there is a dual part.
    have hmerge : (a.merge b).suppliesDual = true := by simp [WarmStart.suppliesDual_merge, ha]
    rw [applyStart_dual_of_supplied hmerge, applyStart_dual (applyStart_dual_of_supplied ha),
      PointValues.overwrite_overwrite]
    rfl
  case neg =>
    obtain ⟨hcols,hrows⟩ : a.dualCols = none ∧ a.dualRows = none := by
      simpa [WarmStart.suppliesDual] using ha
    simp [applyStart, WarmStart.suppliesDual, WarmStart.merge, hcols, hrows]

/-- Two starts in turn are the merged one. -/
theorem applyStart_merge (x : Solution) (a b : WarmStart) :
    x.applyStart (a.merge b) = (x.applyStart a).applyStart b := by
  have hdual := applyStart_merge_dual x a b
  have hprimal : (x.applyStart (a.merge b)).primal = ((x.applyStart a).applyStart b).primal :=
    (PointValues.overwrite_overwrite ..).symm
  simp only [applyStart, mk.injEq] at hdual hprimal ⊢
  refine ⟨?_,?_,hprimal,hdual⟩
  · rw [WarmStart.suppliesPrimal_merge, Bool.or_assoc]
  · rw [WarmStart.suppliesDual_merge, Bool.or_assoc]

theorem foldl_applyStart (x : Solution) (starts : List WarmStart) :
    starts.foldl applyStart x = x.applyStart (.lastSupplied starts) := by
  induction starts generalizing x with
  | nil => exact (applyStart_empty x).symm
  | cons start rest ih =>
    have hcons := WarmStart.lastSupplied_append [start] rest
    rw [WarmStart.lastSupplied_singleton] at hcons
    rw [List.foldl_cons, ih, ← applyStart_merge, ← hcons]
    rfl

/-- The values for a field. There are none as long as there is no dual part. -/
def values (x : Solution) (field : StartField) : SparseVec Float := (x.get? field).getD .empty

theorem applyStart_values {x : Solution} {start : WarmStart} {field : StartField}
    (h : start.get field = none) : (x.applyStart start).values field = x.values field := by
  cases field with
  | primalCols | primalRows =>
    simp only [WarmStart.get] at h
    simp [values, get?, applyStart, PointValues.overwrite, h]
  | dualCols | dualRows =>
    simp only [WarmStart.get] at h
    by_cases hs : start.suppliesDual = true
    · -- The other list is supplied, and this one starts empty where there was no dual part.
      rw [values, get?, applyStart_dual_of_supplied hs]
      cases hx : x.dual <;> simp [values, get?, hx, PointValues.overwrite, PointValues.empty, h]
    · simp [values, get?, applyStart, hs]

theorem applyStart_dual_isSome (x : Solution) (start : WarmStart) :
    (x.applyStart start).dual.isSome = (x.dual.isSome || start.suppliesDual) := by
  by_cases hs : start.suppliesDual = true
  · rw [applyStart_dual_of_supplied hs, hs, Bool.or_true]
    rfl
  · simp [applyStart, hs]

theorem foldl_dual_isSome (x : Solution) (starts : List WarmStart) :
    (starts.foldl applyStart x).dual.isSome =
      (x.dual.isSome || starts.any (·.suppliesDual)) := by
  induction starts generalizing x with
  | nil => simp
  | cons start rest ih =>
    rw [List.foldl_cons, ih, applyStart_dual_isSome, List.any_cons, Bool.or_assoc]

/-- Of several starts in turn the last version of every list counts: they come to the one start with
these lists. So a start may be repeated, starts that supply different lists may change places, and
a start without lists does nothing. Where no start supplies a list the values are those there were;
a dual part without lists is made only beside a dual list that is supplied. -/
theorem starts_collapse (x : Solution) (starts : List WarmStart) :
    starts.foldl applyStart x = x.applyStart (.lastSupplied starts) ∧
    (∀ field, (WarmStart.lastSupplied starts).get field =
      (starts.filterMap (·.get field)).getLast?) ∧
    (∀ start, (x.applyStart start).applyStart start = x.applyStart start) ∧
    (∀ a b : WarmStart, (∀ field, a.get field = none ∨ b.get field = none) →
      (x.applyStart a).applyStart b = (x.applyStart b).applyStart a) ∧
    (∀ start : WarmStart, (∀ field, start.get field = none) → x.applyStart start = x) ∧
    (∀ field, (∀ start ∈ starts, start.get field = none) →
      (starts.foldl applyStart x).values field = x.values field) ∧
    (starts.foldl applyStart x).dual.isSome =
      (x.dual.isSome || starts.any (·.suppliesDual)) := by
  refine ⟨foldl_applyStart x starts,WarmStart.lastSupplied_get starts,fun start => ?_,
    fun a b h => ?_,fun start h => ?_,fun field h => ?_,foldl_dual_isSome x starts⟩
  · rw [← applyStart_merge, WarmStart.merge_self]
  · rw [← applyStart_merge, ← applyStart_merge, WarmStart.merge_comm h]
  · rw [WarmStart.eq_empty h, applyStart_empty]
  · rw [foldl_applyStart]
    apply applyStart_values
    rw [WarmStart.lastSupplied_get, List.filterMap_eq_nil_iff.mpr h]
    rfl

/-- Values of the columns are replaced, then duals of the rows arrive where there were no duals. -/
theorem starts_collapse_first_dual :
    let x := Solution.ofEngine ⟨true,false,[1,0],[],[3],[]⟩
    let starts : List WarmStart := [⟨some [4,5],none,none,none⟩,⟨none,none,none,some [2]⟩,
      ⟨some [],none,none,none⟩]
    starts.foldl applyStart x = x.applyStart ⟨some [],none,none,some [2]⟩ ∧
      (starts.foldl applyStart x).values .primalRows = ⟨[0],[3]⟩ ∧
      (starts.foldl applyStart x).values .dualCols = .empty := by
  intro x starts
  obtain ⟨hfold,-,-,-,-,hvalues,-⟩ := starts_collapse x starts
  exact ⟨hfold,(hvalues .primalRows (by decide)).trans (by decide),
    (hvalues .dualCols (by decide)).trans (by decide)⟩

end Solution
end SolverSession
