import Mathlib
import SolverSession.Problem
import SolverSession.Proofs.Simplex

/-!
# Points of programs with whole numbers

Branching ends at points whose coordinates are whole where they have to be, and the value that is
reported is the value at the point. Neither is changed when a point in short steps is read as one in
the variables, nor when a problem is reduced first.
-/
namespace SolverSession

open Inequality LinearProgram

/-- The rational is an integer. -/
def IsInteger (x : Rat) : Prop := ∃ k : Int, x = k

theorem isInteger_zero : IsInteger 0 := ⟨0,by simp⟩

theorem isInteger_one : IsInteger 1 := ⟨1,by simp⟩

theorem IsInteger.add {x y : Rat} : IsInteger x → IsInteger y → IsInteger (x+y) := by
  rintro ⟨k,rfl⟩ ⟨l,rfl⟩
  exact ⟨k+l,by push_cast; rfl⟩

theorem IsInteger.mul {x y : Rat} : IsInteger x → IsInteger y → IsInteger (x*y) := by
  rintro ⟨k,rfl⟩ ⟨l,rfl⟩
  exact ⟨k*l,by push_cast; rfl⟩

theorem IsInteger.sub {x y : Rat} : IsInteger x → IsInteger y → IsInteger (x-y) := by
  rintro ⟨k,rfl⟩ ⟨l,rfl⟩
  exact ⟨k-l,by push_cast; rfl⟩

/-! ## Inequalities on one variable -/

theorem length_unit (n j : Nat) (c : Rat) : (unit n j c).length = n := by
  simp [unit]

theorem getD_unit {j k : Nat} (h : j ≠ k) (n : Nat) (c : Rat) : (unit n j c).getD k 0 = 0 := by
  rw [List.getD_eq_getElem?_getD, unit, List.getElem?_set_ne h, List.getElem?_replicate]
  split <;> rfl

theorem product_unit {n : Nat} {xs : List Rat} (h : xs.length = n) (j : Nat) (c : Rat) :
    product (unit n j c) xs = c*xs.getD j 0 := by
  rw [product_eq_set _ _ j, unit, List.set_set, product_of_zero_coefficients, zero_add]
  · by_cases hj : j < n
    · rw [List.getD_eq_getElem _ _ (by simpa using hj), List.getElem_set_self]
    · rw [List.getD_eq_default xs _ (by omega), mul_zero, mul_zero]
  · intro c hc
    rcases List.mem_or_eq_of_mem_set hc with hc | rfl
    · exact List.eq_of_mem_replicate hc
    · rfl

namespace IntegerProgram

/-! ## Sharper systems -/

variable {n : Nat} {l : List Inequality} {integers : List Nat}

theorem length_rounded (integers : List Nat) (i : Inequality) :
    (rounded integers i).coefficients.length = i.coefficients.length := by
  unfold rounded
  dsimp only
  split
  · rfl
  · exact List.length_map _

theorem mem_tighten {i a : Inequality} (h : a ∈ tighten i l) :
    a = i ∨ a ∈ l := by
  induction l with
  | nil => exact .inl (List.mem_singleton.mp h)
  | cons j rest ih =>
    rw [tighten] at h
    split at h
    · rcases List.mem_cons.mp h with rfl | hrest
      · split
        · exact .inl rfl
        · exact .inr List.mem_cons_self
      · exact .inr (List.mem_cons_of_mem _ hrest)
    · rcases List.mem_cons.mp h with rfl | hrest
      · exact .inr List.mem_cons_self
      · exact (ih hrest).imp_right (List.mem_cons_of_mem _)

theorem inVariables_tighten {i : Inequality} (hi : i.coefficients.length = n)
    (h : InVariables n l) : InVariables n (tighten i l) := fun a ha => by
  rcases mem_tighten ha with rfl | hmem
  · exact hi
  · exact h a hmem

theorem length_fix (j : Nat) (value : Rat) (i : Inequality) :
    (fix j value i).coefficients.length = i.coefficients.length := by
  unfold fix
  split
  · rfl
  · exact List.length_set

theorem inVariables_sharpen (integers : List Nat) (h : InVariables n l) :
    InVariables n (sharpen n integers l) := by
  have hsharp : ∀ l kept : List Inequality, InVariables n l → InVariables n kept →
      InVariables n (l.foldl (fun kept i => tighten (rounded integers i) kept) kept) := by
    intro l
    induction l with
    | nil => exact fun _ _ hkept => hkept
    | cons i rest ih =>
      intro kept hl hkept
      obtain ⟨hi,hrest⟩ := List.forall_mem_cons.mp hl
      exact ih _ hrest (inVariables_tighten ((length_rounded integers i).trans hi) hkept)
  refine hsharp _ [] ?_ nofun
  refine List.foldlRecOn integers _ (hsharp _ [] h nofun) fun l hl j _ => ?_
  split
  · exact List.forall_mem_map.mpr fun i hi => (length_fix _ _ i).trans (hl i hi)
  · exact hl

/-! ## What branching returns -/

structure WellSized (p : IntegerProgram) : Prop where
  costs : p.costs.length = p.size
  firm : InVariables p.size p.firm
  loose : InVariables p.size p.loose

theorem WellSized.system {p : IntegerProgram} (hp : p.WellSized) : InVariables p.size p.system :=
  fun i hi => (List.mem_append.mp hi).elim (hp.firm i) (hp.loose i)

/-- The point is whole where it has to be, and has this value. -/
structure Solves (p : IntegerProgram) (value : Rat) (point : List Rat) : Prop where
  length : point.length = p.size
  whole : ∀ j ∈ p.integers, IsInteger (point.getD j 0)
  value : value = product p.costs point

/-- If a point is returned, it is such a point. -/
def Returns (p : IntegerProgram) (v : Verdict) : Prop :=
  ∀ value point, v = .optimal value point → p.Solves value point

def Holds (p : IntegerProgram) (best : Candidate) : Prop := p.Returns best.verdict

variable {p q : IntegerProgram} {value : Rat} {point : List Rat}

theorem holds_none : p.Holds none := fun _ _ h => by cases h

theorem holds_some : p.Holds (some (value,point)) ↔ p.Solves value point := by
  constructor
  · exact fun h => h _ _ rfl
  · intro h v x heq
    obtain ⟨rfl,rfl⟩ := Verdict.optimal.inj heq
    exact h

theorem Holds.better {best other : Candidate} (hbest : p.Holds best) (hother : p.Holds other) :
    p.Holds (best.better other) := by
  unfold Candidate.better
  split
  · split
    · exact hother
    · exact hbest
  · exact hother
  · exact hbest

theorem whole_of_fractional? (h : fractional? 0 point integers = none) :
    ∀ j ∈ integers, IsInteger (point.getD j 0) := by
  intro j hj
  have hnone := List.findSome?_eq_none_iff.mp h j hj
  have hnear := by_contra fun hfar => Option.some_ne_none _ (ite_eq_left_iff.mp hnone hfar)
  rw [Bool.and_eq_true, decide_eq_true_eq, decide_eq_true_eq] at hnear
  exact ⟨_,by linarith [hnear.1,hnear.2]⟩

/-- The program with other bounds on its loose inequalities. -/
structure Loosens (p q : IntegerProgram) : Prop where
  size : q.size = p.size
  costs : q.costs = p.costs
  integers : q.integers = p.integers
  firm : q.firm = p.firm
  loose : InVariables p.size p.loose → InVariables p.size q.loose

theorem loosens_of_loosen? (h : p.loosen? = some q) : p.Loosens q := by
  unfold loosen? at h
  split at h
  case h_1 value point _ =>
    dsimp only at h
    obtain ⟨-,h⟩ := Option.ite_none_right_eq_some.mp h
    obtain rfl := Option.some.inj h
    refine ⟨rfl,rfl,rfl,rfl,fun hloose i hi => ?_⟩
    obtain ⟨k,hk,rfl⟩ := List.mem_iff_getElem.mp hi
    have hlt : k < p.loose.length := List.lt_length_left_of_zipWith hk
    rw [List.getElem_zipWith]
    exact hloose p.loose[k] (List.getElem_mem hlt)
  case h_2 => cases h

theorem Loosens.wellSized (h : p.Loosens q) (hp : p.WellSized) : q.WellSized where
  costs := by rw [h.costs, h.size, hp.costs]
  firm := by
    rw [h.firm, h.size]
    exact hp.firm
  loose := by
    rw [h.size]
    exact h.loose hp.loose

theorem Loosens.solves (h : p.Loosens q) (hq : q.Solves value point) : p.Solves value point where
  length := hq.length.trans h.size
  whole := by
    rw [← h.integers]
    exact hq.whole
  value := by rw [hq.value, h.costs]

/-- A candidate near a point has the whole numbers next to it. -/
theorem holds_near (hp : p.WellSized) (point : List Rat) : p.Holds (p.near point) := by
  unfold near
  extract_lets fixed
  split
  case h_1 => exact holds_none
  case h_2 q hq =>
    have hfixed : InVariables p.size fixed := by
      intro i hi
      obtain ⟨j,-,hi⟩ := List.mem_flatMap.mp hi
      simp only [List.mem_cons, List.not_mem_nil, or_false] at hi
      rcases hi with rfl | rfl <;> exact length_unit _ _ _
    have hwell : WellSized { p with firm := fixed ++ p.firm } :=
      ⟨hp.costs,fun i hi => (List.mem_append.mp hi).elim (hfixed i) (hp.firm i),hp.loose⟩
    have hloosens := loosens_of_loosen? hq
    have hqwell := hloosens.wellSized hwell
    split
    case h_1 value x hminimize =>
      obtain ⟨hlength,hsystem,hvalue⟩ := minimize_sound hqwell.costs hqwell.system hminimize
      have hx : x.length = p.size := hlength.trans hloosens.size
      refine holds_some.mpr ⟨hx,fun j hj => ?_,hvalue.trans (by rw [hloosens.costs])⟩
      have hmem : ∀ i ∈ fixed, product i.coefficients x ≤ i.bound := fun i hi => by
        refine hsystem i (List.mem_append_left _ ?_)
        rw [hloosens.firm]
        exact List.mem_append_left _ hi
      have hupper := hmem _ (List.mem_flatMap.mpr ⟨j,hj,List.mem_cons_self⟩)
      have hlower := hmem _ (List.mem_flatMap.mpr
        ⟨j,hj,List.mem_cons_of_mem _ List.mem_cons_self⟩)
      rw [product_unit hx] at hupper hlower
      exact ⟨_,by linarith⟩
    case h_2 => exact holds_none

theorem returns_search (hp : p.WellSized) {fuel : Nat} {best : Candidate}
    {nodes : List (List Inequality)} (hbest : p.Holds best)
    (hnodes : ∀ node ∈ nodes, InVariables p.size node) : p.Returns (p.search fuel best nodes) := by
  induction fuel generalizing best nodes with
  | zero => exact hbest
  | succ fuel ih =>
    cases nodes with
    | nil => exact hbest
    | cons node nodes =>
      obtain ⟨hnode,hrest⟩ := List.forall_mem_cons.mp hnodes
      have hsystem := inVariables_sharpen p.integers hnode
      rw [search]
      dsimp only
      split
      case h_1 => exact ih hbest hrest
      case h_2 => exact nofun
      case h_3 value point hminimize =>
        obtain ⟨hlength,-,hvalue⟩ := minimize_sound hp.costs hsystem hminimize
        split
        · exact ih hbest hrest
        · split
          case h_1 hwhole =>
            exact ih (holds_some.mpr ⟨hlength,whole_of_fractional? hwhole,hvalue⟩) hrest
          case h_2 j x _ =>
            refine ih ?_ (List.forall_mem_cons.mpr ⟨inVariables_tighten (length_unit _ _ _) hsystem,
              List.forall_mem_cons.mpr ⟨inVariables_tighten (length_unit _ _ _) hsystem,hrest⟩⟩)
            split
            · exact hbest.better (holds_near hp point)
            · exact hbest

theorem returns_branch (hp : p.WellSized) (fuel : Nat) : p.Returns (p.branch fuel) := by
  have hsearch : p.Returns (p.search fuel none [p.system]) :=
    returns_search hp holds_none (List.forall_mem_singleton.mpr hp.system)
  unfold branch
  split
  case h_1 => split <;> exact nofun
  case h_2 => exact hsearch

end IntegerProgram

/-! ## Short steps -/

/-- The vector has whole numbers only. -/
structure Lattice (n : Nat) (vector : List Rat) : Prop where
  length : vector.length = n
  whole : ∀ x ∈ vector, IsInteger x

theorem lattice_unit (n j : Nat) : Lattice n (unit n j 1) where
  length := length_unit n j 1
  whole x hx := by
    rcases List.mem_or_eq_of_mem_set hx with hx | rfl
    · exact List.eq_of_mem_replicate hx ▸ isInteger_zero
    · exact isInteger_one

theorem Lattice.getD {n : Nat} {vector : List Rat} (h : Lattice n vector) (k : Nat) :
    IsInteger (vector.getD k 0) := by
  by_cases hk : k < vector.length
  · rw [List.getD_eq_getElem _ _ hk]
    exact h.whole _ (List.getElem_mem hk)
  · rw [List.getD_eq_default _ _ (not_lt.mp hk)]
    exact isInteger_zero

theorem Lattice.zipWith {n : Nat} {v w : List Rat} {f : Rat → Rat → Rat}
    (hf : ∀ x y, IsInteger x → IsInteger y → IsInteger (f x y)) (hv : Lattice n v)
    (hw : Lattice n w) : Lattice n (List.zipWith f v w) where
  length := by rw [List.length_zipWith, hv.length, hw.length, min_self]
  whole x hx := by
    obtain ⟨k,hk,rfl⟩ := List.mem_iff_getElem.mp hx
    rw [List.getElem_zipWith]
    exact hf _ _ (hv.whole _ (List.getElem_mem _)) (hw.whole _ (List.getElem_mem _))

namespace IntegerProgram.Step

variable {n : Nat} {steps : List Step}

theorem lattice_reduce {s other : Step} (hs : Lattice n s.vector)
    (hother : Lattice n other.vector) : Lattice n (s.reduce other).vector :=
  hs.zipWith (fun _ _ hx hy => hx.sub (.mul ⟨_,rfl⟩ hy)) hother

theorem lattice_foldl_reduce {s : Step} (hs : Lattice n s.vector)
    (h : ∀ s ∈ steps, Lattice n s.vector) : Lattice n (steps.foldl reduce s).vector := by
  induction steps generalizing s with
  | nil => exact hs
  | cons other rest ih =>
    obtain ⟨hother,hrest⟩ := List.forall_mem_cons.mp h
    exact ih (lattice_reduce hs hother) hrest

theorem lattice_sweep {done : List Step} (hdone : ∀ s ∈ done, Lattice n s.vector)
    (h : ∀ s ∈ steps, Lattice n s.vector) : ∀ s ∈ sweep done steps, Lattice n s.vector := by
  induction steps generalizing done with
  | nil => exact hdone
  | cons s rest ih =>
    obtain ⟨hs,hrest⟩ := List.forall_mem_cons.mp h
    refine ih (fun t ht => ?_) hrest
    rcases List.mem_append.mp ht with ht | ht
    · exact hdone t ht
    · rw [List.mem_singleton.mp ht]
      exact lattice_foldl_reduce (lattice_foldl_reduce hs hdone) hrest

theorem lattice_shorten {fuel : Nat} (h : ∀ s ∈ steps, Lattice n s.vector) :
    ∀ s ∈ shorten fuel steps, Lattice n s.vector := by
  induction fuel generalizing steps with
  | zero => exact h
  | succ fuel ih =>
    rw [shorten]
    split
    · exact h
    · exact ih (lattice_sweep nofun h)

end IntegerProgram.Step

namespace IntegerProgram

variable {p : IntegerProgram} {basis : List (List Rat)} {factors : List Rat} {n : Nat}

theorem lattice_steps (p : IntegerProgram) : ∀ s ∈ p.steps, Lattice p.size s.vector := by
  intro s hs
  refine Step.lattice_shorten (List.forall_mem_map.mpr fun j _ => ?_) s (List.mem_mergeSort.mp hs)
  exact lattice_unit _ _

/-- The vectors are whole, and one that stands for a variable which need not be whole is its own. -/
structure Basis (p : IntegerProgram) (basis : List (List Rat)) : Prop where
  length : basis.length = p.size
  lattice : ∀ b ∈ basis, Lattice p.size b
  own : ∀ j ∉ p.integers, ∀ b, basis[j]? = some b → b = unit p.size j 1

theorem Basis.set (h : p.Basis basis) {j : Nat} (hj : j ∈ p.integers) {b : List Rat}
    (hb : Lattice p.size b) : p.Basis (basis.set j b) where
  length := List.length_set.trans h.length
  lattice c hc := by
    rcases List.mem_or_eq_of_mem_set hc with hc | rfl
    · exact h.lattice c hc
    · exact hb
  own k hk c hc := by
    have hne : j ≠ k := fun heq => hk (heq ▸ hj)
    rw [List.getElem?_set_ne hne] at hc
    exact h.own k hk c hc

theorem basis_basis (p : IntegerProgram) : p.Basis p.basis := by
  have hown : p.Basis ((List.range p.size).map fun j => unit p.size j 1) := {
    length := by simp
    lattice := List.forall_mem_map.mpr fun j _ => lattice_unit _ _
    own := by
      intro j _ b hb
      rw [List.getElem?_map, Option.map_eq_some_iff] at hb
      obtain ⟨k,hk,rfl⟩ := hb
      obtain ⟨_,hk⟩ := List.getElem?_eq_some_iff.mp hk
      rw [List.getElem_range] at hk
      rw [hk] }
  refine List.foldlRecOn (p.integers.zip p.steps) _ hown fun basis h e he => ?_
  obtain ⟨j,s⟩ := e
  obtain ⟨hj,hs⟩ := List.of_mem_zip he
  exact h.set hj (lattice_steps p s hs)

/-! ## A point in short steps read in the variables -/

theorem combine_foldl (cs : List Rat) {pairs : List (List Rat × Rat)} {sum : List Rat}
    (hsum : sum.length = n) (h : ∀ e ∈ pairs, e.1.length = n) :
    (pairs.foldl (fun sum (b,y) => List.zipWith (fun s x => s+y*x) sum b) sum).length = n ∧
    product cs (pairs.foldl (fun sum (b,y) => List.zipWith (fun s x => s+y*x) sum b) sum) =
      product cs sum+product (pairs.map fun e => product cs e.1) (pairs.map (·.2)) := by
  induction pairs generalizing sum with
  | nil => exact ⟨hsum,(add_zero _).symm⟩
  | cons e rest ih =>
    obtain ⟨he,hrest⟩ := List.forall_mem_cons.mp h
    have hlength : (List.zipWith (fun s x => s+e.2*x) sum e.1).length = n := by
      rw [List.length_zipWith, hsum, he, min_self]
    obtain ⟨hfold,hproduct⟩ := ih hlength hrest
    refine ⟨hfold,hproduct.trans ?_⟩
    rw [product_comm cs (List.zipWith _ _ _), product_zipWith (hsum.trans he.symm),
      product_comm sum, product_comm e.1, List.map_cons, List.map_cons, product]
    ring

theorem length_combine (hbasis : ∀ b ∈ basis, b.length = n) :
    (combine n basis factors).length = n :=
  (combine_foldl [] List.length_replicate fun _ he => hbasis _ (List.of_mem_zip he).1).1

theorem product_combine (hbasis : ∀ b ∈ basis, b.length = n)
    (hlength : basis.length = factors.length) (cs : List Rat) :
    product cs (combine n basis factors) = product (basis.map (product cs)) factors := by
  refine (combine_foldl cs List.length_replicate fun _ he =>
    hbasis _ (List.of_mem_zip he).1).2.trans ?_
  have hfirst : (basis.zip factors).map (fun e => product cs e.1) = basis.map (product cs) := by
    conv_rhs => rw [← List.map_fst_zip hlength.le, List.map_map]
    rfl
  rw [hfirst, List.map_snd_zip hlength.ge, product_of_zeros (fun _ => List.eq_of_mem_replicate),
    zero_add]

theorem isInteger_product {cs xs : List Rat} (h : ∀ j, IsInteger (cs.getD j 0*xs.getD j 0)) :
    IsInteger (product cs xs) := by
  induction cs generalizing xs with
  | nil => exact isInteger_zero
  | cons c cs ih =>
    cases xs with
    | nil => exact isInteger_zero
    | cons x xs => exact (h 0).add (ih fun j => h (j+1))

theorem Basis.wellSized (hbasis : p.Basis basis) : (p.inBasis basis).WellSized where
  costs := (List.length_map _).trans hbasis.length
  firm := List.forall_mem_map.mpr fun _ _ => (List.length_map _).trans hbasis.length
  loose := List.forall_mem_map.mpr fun _ _ => (List.length_map _).trans hbasis.length

theorem Basis.solves (hbasis : p.Basis basis) {value : Rat}
    (h : (p.inBasis basis).Solves value factors) :
    p.Solves value (combine p.size basis factors) := by
  have hsized : ∀ b ∈ basis, b.length = p.size := fun b hb => (hbasis.lattice b hb).length
  have hlength : basis.length = factors.length := hbasis.length.trans h.length.symm
  refine ⟨length_combine hsized,fun i hi => ?_,?_⟩
  · have hcoordinate := product_combine hsized hlength (unit p.size i 1)
    rw [product_unit (length_combine hsized), one_mul] at hcoordinate
    rw [hcoordinate]
    refine isInteger_product fun j => ?_
    by_cases hj : j < basis.length
    · have hb := hbasis.lattice _ (List.getElem_mem hj)
      rw [List.getD_eq_getElem _ _ (by simpa using hj), List.getElem_map, product_unit hb.length,
        one_mul]
      by_cases hinteger : j ∈ p.integers
      · exact (hb.getD i).mul (h.whole j hinteger)
      · have hne : j ≠ i := fun heq => hinteger (heq ▸ hi)
        rw [hbasis.own j hinteger _ (List.getElem?_eq_getElem hj), getD_unit hne, zero_mul]
        exact isInteger_zero
    · rw [List.getD_eq_default _ _ (by simpa using hj), zero_mul]
      exact isInteger_zero
  · rw [product_combine hsized hlength]
    exact h.value

theorem returns_solve (hp : p.WellSized) (fuel : Nat) : p.Returns (p.solve fuel) := by
  intro value point h
  unfold solve at h
  split at h
  case h_1 => cases h
  case h_2 q hq =>
    have hloosens := loosens_of_loosen? hq
    have hwell := hloosens.wellSized hp
    split at h
    · exact hloosens.solves (returns_branch hwell fuel value point h)
    · dsimp only at h
      split at h
      case h_1 v x hv =>
        obtain ⟨rfl,rfl⟩ := Verdict.optimal.inj h
        have hbasis := basis_basis q
        exact hloosens.solves (hbasis.solves (returns_branch hbasis.wellSized fuel _ _ hv))
      case h_2 hno => exact absurd h (hno value point)

end IntegerProgram

/-! ## Problems -/

/-- What reducing a problem leaves alone of an unknown. -/
def Unknown.profile (u : Unknown) : Rat × Bool := (u.cost,u.whole)

theorem mapM_map {β γ : Type} {f : β → Option β} {g : β → γ} (h : ∀ x y, f x = some y → g y = g x)
    {l r : List β} (hr : l.mapM f = some r) : r.map g = l.map g := by
  induction l generalizing r with
  | nil =>
    obtain rfl := Option.some.inj hr
    rfl
  | cons x l ih =>
    rw [List.mapM_cons] at hr
    obtain ⟨y,hy,hr⟩ := Option.bind_eq_some_iff.mp hr
    obtain ⟨s,hs,hr⟩ := Option.bind_eq_some_iff.mp hr
    obtain rfl := Option.some.inj hr
    rw [List.map_cons, List.map_cons, h x y hy, ih hs]

namespace Problem

/-- Unknowns keep costs and wholeness, and bands are only left out. -/
structure Reduces (p q : Problem) : Prop where
  unknowns : q.unknowns.map Unknown.profile = p.unknowns.map Unknown.profile
  bands : ∀ b ∈ q.bands, ∃ a ∈ p.bands, a.coefficients = b.coefficients

variable {p q r : Problem} {value : Rat} {point : List Rat}

theorem reduces_refl (p : Problem) : p.Reduces p := ⟨rfl,fun b hb => ⟨b,hb,rfl⟩⟩

theorem Reduces.trans (hpq : p.Reduces q) (hqr : q.Reduces r) : p.Reduces r where
  unknowns := hqr.unknowns.trans hpq.unknowns
  bands b hb := by
    obtain ⟨c,hc,hcb⟩ := hqr.bands b hb
    obtain ⟨a,ha,hac⟩ := hpq.bands c hc
    exact ⟨a,ha,hac.trans hcb⟩

theorem profile_set {unknowns : List Unknown} {j : Nat} {u : Unknown} (h : unknowns[j]? = some u)
    (range : Interval) : (unknowns.set j { u with range := range }).map Unknown.profile =
      unknowns.map Unknown.profile := by
  obtain ⟨hj,rfl⟩ := List.getElem?_eq_some_iff.mp h
  have hlt : j < (unknowns.map Unknown.profile).length := by rwa [List.length_map]
  have hsame : Unknown.profile { unknowns[j] with range := range } =
      (unknowns.map Unknown.profile)[j] := by
    rw [List.getElem_map]
    rfl
  rw [List.map_set, hsame, List.set_getElem_self]

theorem profile_impose? {unknowns left : List Unknown} {b : Band} {needed : Bool}
    (h : b.impose? unknowns = some (left,needed)) :
    left.map Unknown.profile = unknowns.map Unknown.profile := by
  unfold Band.impose? at h
  dsimp only at h
  split at h
  · obtain ⟨rfl,-⟩ := Prod.mk.inj (Option.some.inj h)
    rfl
  · split at h
    · split at h
      · obtain ⟨rfl,-⟩ := Prod.mk.inj (Option.some.inj h)
        rfl
      case h_2 unknown hunknown =>
        obtain ⟨range,-,heq⟩ := Option.map_eq_some_iff.mp h
        obtain ⟨rfl,-⟩ := Prod.mk.inj heq
        exact profile_set hunknown range
    · obtain ⟨-,h⟩ := Option.ite_none_left_eq_some.mp h
      obtain ⟨rfl,-⟩ := Prod.mk.inj (Option.some.inj h)
      rfl

theorem reduces_imposeAll? {bands kept : List Band} {unknowns left : List Unknown}
    (h : Band.imposeAll? unknowns bands = some (left,kept)) :
    Reduces ⟨unknowns,bands⟩ ⟨left,kept⟩ := by
  induction bands generalizing unknowns left kept with
  | nil =>
    obtain ⟨rfl,rfl⟩ := Prod.mk.inj (Option.some.inj h)
    exact reduces_refl _
  | cons b bands ih =>
    rw [Band.imposeAll?] at h
    split at h
    case h_1 => cases h
    case h_2 middle needed himpose =>
      obtain ⟨⟨last,rest⟩,hrest,heq⟩ := Option.map_eq_some_iff.mp h
      obtain ⟨rfl,rfl⟩ := Prod.mk.inj heq
      have hreduces := ih hrest
      refine ⟨hreduces.unknowns.trans (profile_impose? himpose),fun c hc => ?_⟩
      have hmem : c = b ∨ c ∈ rest := by
        revert hc
        dsimp only
        split
        · exact List.mem_cons.mp
        · exact .inr
      rcases hmem with rfl | hmem
      · exact ⟨c,List.mem_cons_self,rfl⟩
      · obtain ⟨a,ha,hac⟩ := hreduces.bands c hmem
        exact ⟨a,List.mem_cons_of_mem _ ha,hac⟩

theorem profile_roundWhole? {unknowns left : List Unknown}
    (h : roundWhole? unknowns = some left) :
    left.map Unknown.profile = unknowns.map Unknown.profile := by
  refine mapM_map (fun u v huv => ?_) h
  split at huv
  · obtain ⟨range,-,rfl⟩ := Option.map_eq_some_iff.mp huv
    rfl
  · obtain rfl := Option.some.inj huv
    rfl

theorem reduces_reduce? {fuel : Nat} (h : p.reduce? fuel = some q) : p.Reduces q := by
  induction fuel generalizing p with
  | zero => exact Option.some.inj h ▸ reduces_refl p
  | succ fuel ih =>
    rw [reduce?] at h
    obtain ⟨⟨unknowns,bands⟩,himpose,h⟩ := Option.bind_eq_some_iff.mp h
    obtain ⟨left,hround,h⟩ := Option.bind_eq_some_iff.mp h
    have hreduces := reduces_imposeAll? himpose
    have hround : Reduces p ⟨left,bands⟩ :=
      ⟨(profile_roundWhole? hround).trans hreduces.unknowns,hreduces.bands⟩
    dsimp only at h
    split at h
    · exact Option.some.inj h ▸ reduces_refl p
    · exact hround.trans (ih h)

theorem reduces_reconcile? (h : p.reconcile? = some q) : p.Reduces q := by
  obtain ⟨unknowns,hunknowns,h⟩ := Option.bind_eq_some_iff.mp h
  obtain ⟨bands,hbands,h⟩ := Option.bind_eq_some_iff.mp h
  obtain rfl := Option.some.inj h
  constructor
  · refine mapM_map (fun u v huv => ?_) hunknowns
    obtain ⟨range,-,rfl⟩ := Option.map_eq_some_iff.mp huv
    rfl
  · have hsame : bands.map (·.coefficients) = p.bands.map (·.coefficients) :=
      mapM_map (fun b c hbc => by
        obtain ⟨range,-,rfl⟩ := Option.map_eq_some_iff.mp hbc
        rfl) hbands
    intro b hb
    exact List.mem_map.mp (hsame ▸ List.mem_map.mpr ⟨b,hb,rfl⟩)

/-- The bands are in the unknowns. -/
def WellSized (p : Problem) : Prop := ∀ b ∈ p.bands, b.coefficients.length = p.unknowns.length

/-- The point is whole where it has to be, and has this value. -/
structure Solves (p : Problem) (value : Rat) (point : List Rat) : Prop where
  length : point.length = p.unknowns.length
  whole : ∀ (j : Nat) (u : Unknown), p.unknowns[j]? = some u → u.whole = true →
    IsInteger (point.getD j 0)
  value : value = product (p.unknowns.map (·.cost)) point

theorem Reduces.length (h : p.Reduces q) : q.unknowns.length = p.unknowns.length := by
  have hlength := congrArg List.length h.unknowns
  rwa [List.length_map, List.length_map] at hlength

theorem Reduces.wellSized (h : p.Reduces q) (hp : p.WellSized) : q.WellSized := fun b hb => by
  obtain ⟨a,ha,hab⟩ := h.bands b hb
  rw [← hab, h.length, hp a ha]

theorem Reduces.solves (h : p.Reduces q) (hq : q.Solves value point) : p.Solves value point where
  length := hq.length.trans h.length
  whole j u hu hwhole := by
    have hprofile : (q.unknowns.map Unknown.profile)[j]? = some u.profile := by
      rw [h.unknowns, List.getElem?_map, hu, Option.map_some]
    rw [List.getElem?_map] at hprofile
    obtain ⟨v,hv,heq⟩ := Option.map_eq_some_iff.mp hprofile
    exact hq.whole j v hv ((Prod.mk.inj heq).2.trans hwhole)
  value := by
    have hcosts := congrArg (List.map Prod.fst) h.unknowns
    rw [List.map_map, List.map_map] at hcosts
    exact hq.value.trans (congrArg (product · point) hcosts)

theorem inVariables_inequalities {n : Nat} {cs : List Rat} (h : cs.length = n) (r : Interval) :
    InVariables n (r.inequalities cs) := by
  intro i hi
  rcases List.mem_append.mp hi with hi | hi
  · obtain ⟨l,-,rfl⟩ := Option.map_eq_some_iff.mp (Option.mem_toList.mp hi)
    exact (List.length_map _).trans h
  · obtain ⟨u,-,rfl⟩ := Option.map_eq_some_iff.mp (Option.mem_toList.mp hi)
    exact h

theorem program_wellSized (hp : p.WellSized) : p.program.WellSized where
  costs := List.length_map _
  firm i hi := by
    obtain ⟨c,-,hi⟩ := List.mem_flatMap.mp hi
    exact inVariables_inequalities (length_unit _ _ _) _ i hi
  loose i hi := by
    obtain ⟨b,hb,hi⟩ := List.mem_flatMap.mp hi
    exact inVariables_inequalities (hp b hb) _ i hi

theorem solves_of_program (h : p.program.Solves value point) : p.Solves value point where
  length := h.length
  whole j u hu hwhole := by
    refine h.whole j (List.mem_map.mpr ⟨(u,j),List.mem_filter.mpr ⟨?_,hwhole⟩,rfl⟩)
    exact List.mk_mem_zipIdx_iff_getElem?.mpr hu
  value := h.value

/-- A solution of a problem has whole numbers where they have to be, and the value that is
reported is its own. -/
theorem solves_of_solve (hp : p.WellSized) {fuel : Nat}
    (h : p.solve fuel = .optimal value point) : p.Solves value point := by
  unfold solve at h
  split at h
  case h_1 => cases h
  case h_2 q hq =>
    obtain ⟨r,hr,hq⟩ := Option.bind_eq_some_iff.mp hq
    have hreduces := (reduces_reconcile? hr).trans (reduces_reduce? hq)
    have hprogram := program_wellSized (hreduces.wellSized hp)
    exact hreduces.solves
      (solves_of_program (IntegerProgram.returns_solve hprogram fuel value point h))

end Problem
end SolverSession
