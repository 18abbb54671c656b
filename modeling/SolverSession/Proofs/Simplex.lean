import Mathlib
import SolverSession.LinearProgram
import SolverSession.Proofs.Lookup

/-!
# Points of linear programs

A dictionary is a system of equations, and a pivot is another way to write them. So whatever the
simplex method ends with says what the program said, and the point that is read off it satisfies
every inequality and has the value that is reported.
-/
namespace SolverSession

/-! ## Products -/

namespace Inequality

/-- The inequalities are in `n` variables. -/
def InVariables (n : Nat) (system : List Inequality) : Prop :=
  ∀ i ∈ system, i.coefficients.length = n

theorem product_nil (cs : List Rat) : product cs [] = 0 := by cases cs <;> rfl

theorem product_comm (cs xs : List Rat) : product cs xs = product xs cs := by
  induction cs generalizing xs with
  | nil => exact (product_nil xs).symm
  | cons c cs ih =>
    cases xs with
    | nil => rfl
    | cons x xs => rw [product, product, ih, mul_comm]

theorem product_of_zeros {cs xs : List Rat} (h : ∀ x ∈ xs, x = 0) : product cs xs = 0 := by
  induction cs generalizing xs with
  | nil => rfl
  | cons c cs ih =>
    cases xs with
    | nil => rfl
    | cons x xs =>
      obtain ⟨hx,hxs⟩ := List.forall_mem_cons.mp h
      rw [product, hx, ih hxs, mul_zero, add_zero]

theorem product_of_zero_coefficients {cs : List Rat} (h : ∀ c ∈ cs, c = 0) (xs : List Rat) :
    product cs xs = 0 := (product_comm cs xs).trans (product_of_zeros h)

theorem product_append {cs ds xs ys : List Rat} (h : cs.length = xs.length) :
    product (cs ++ ds) (xs ++ ys) = product cs xs + product ds ys := by
  induction cs generalizing xs with
  | nil =>
    obtain rfl := List.length_eq_zero_iff.mp h.symm
    exact (zero_add _).symm
  | cons c cs ih =>
    cases xs with
    | nil => cases h
    | cons x xs =>
      rw [List.cons_append, List.cons_append, product, product, ih (Nat.succ.inj h), add_assoc]

/-- One summand taken out. -/
theorem product_eq_set (cs xs : List Rat) (k : Nat) :
    product cs xs = product (cs.set k 0) xs + cs.getD k 0*xs.getD k 0 := by
  induction cs generalizing xs k with
  | nil => simp [product]
  | cons c cs ih =>
    cases xs with
    | nil => simp [product_nil]
    | cons x xs =>
      cases k with
      | zero => simp [product, add_comm]
      | succ k =>
        have hrest := ih xs k
        simp only [List.set_cons_succ, List.getD_cons_succ, product]
        linarith

theorem product_set_zero (cs xs : List Rat) (k : Nat) (y : Rat) :
    product (cs.set k 0) (xs.set k y) = product (cs.set k 0) xs := by
  induction cs generalizing xs k with
  | nil => rfl
  | cons c cs ih =>
    cases xs with
    | nil => rfl
    | cons x xs =>
      cases k with
      | zero => simp [product]
      | succ k => simp only [List.set_cons_succ, product, ih]

theorem product_zipWith {as bs : List Rat} (h : as.length = bs.length) (c : Rat) (xs : List Rat) :
    product (List.zipWith (fun x y => x+c*y) as bs) xs = product as xs + c*product bs xs := by
  induction as generalizing bs xs with
  | nil =>
    obtain rfl := List.length_eq_zero_iff.mp h.symm
    simp [product]
  | cons a as ih =>
    cases bs with
    | nil => cases h
    | cons b bs =>
      cases xs with
      | nil => simp [product_nil]
      | cons x xs =>
        have hrest := ih (Nat.succ.inj h) xs
        simp only [List.zipWith_cons_cons, product]
        linarith

theorem product_map_mul (cs xs : List Rat) (a : Rat) :
    product (cs.map (a*·)) xs = a*product cs xs := by
  induction cs generalizing xs with
  | nil => exact (mul_zero a).symm
  | cons c cs ih =>
    cases xs with
    | nil => exact (mul_zero a).symm
    | cons x xs =>
      rw [List.map_cons, product, product, ih]
      ring

theorem product_eraseIdx (cs xs : List Rat) (k : Nat) :
    product cs xs = product (cs.eraseIdx k) (xs.eraseIdx k) + cs.getD k 0*xs.getD k 0 := by
  induction cs generalizing xs k with
  | nil => simp [product]
  | cons c cs ih =>
    cases xs with
    | nil => simp [product_nil]
    | cons x xs =>
      cases k with
      | zero => simp [product, add_comm]
      | succ k =>
        have hrest := ih xs k
        simp only [List.eraseIdx_cons_succ, List.getD_cons_succ, product]
        linarith

end Inequality

open Inequality

/-! ## Forms -/

namespace Form

def eval (f : Form) (xs : List Rat) : Rat := f.constant+product f.coefficients xs

variable {f e : Form} {xs : List Rat} {k : Nat}

theorem solve_eval (hcoefficients : k < f.coefficients.length) (hk : k < xs.length)
    (hpivot : f.coefficients.getD k 0 ≠ 0) (y : Rat) : (f.solve k).eval (xs.set k y) =
      xs.getD k 0+(y-f.eval xs)/f.coefficients.getD k 0 := by
  obtain ⟨a,ha⟩ : ∃ a, f.coefficients.getD k 0 = a := ⟨_,rfl⟩
  rw [ha] at hpivot ⊢
  have hmap : f.coefficients.map (-·/a) = f.coefficients.map (-1/a*·) :=
    List.map_congr_left fun c _ => by ring
  have hold := product_eq_set (f.coefficients.map (-1/a*·)) xs k
  have hnew := product_eq_set ((f.coefficients.map (-1/a*·)).set k (1/a)) (xs.set k y) k
  have hcoefficient : (f.coefficients.map (-1/a*·)).getD k 0 = -1 := by
    rw [List.getD_eq_getElem _ _ (by simpa using hcoefficients), List.getElem_map,
      ← List.getD_eq_getElem _ 0 hcoefficients, ha, div_mul_cancel₀ _ hpivot]
  have hentry : ((f.coefficients.map (-1/a*·)).set k (1/a)).getD k 0 = 1/a := by
    rw [List.getD_eq_getElem _ _ (by simpa using hcoefficients), List.getElem_set_self]
  have hy : (xs.set k y).getD k 0 = y := by
    rw [List.getD_eq_getElem _ _ (by simpa using hk), List.getElem_set_self]
  rw [hcoefficient, product_map_mul] at hold
  rw [List.set_set, product_set_zero, hentry, hy] at hnew
  rw [solve, eval, eval, ha, hmap, hnew, eq_sub_of_add_eq hold.symm]
  ring

theorem substitute_eval (hlength : f.coefficients.length = e.coefficients.length) (y : Rat) :
    (f.substitute k e).eval (xs.set k y) =
      f.eval xs+f.coefficients.getD k 0*(e.eval (xs.set k y)-xs.getD k 0) := by
  rw [substitute, eval, eval, eval, product_zipWith (by simpa using hlength), product_set_zero,
    product_eq_set f.coefficients xs k]
  ring

end Form

/-! ## Dictionaries -/

namespace Dictionary

/-- The quantities satisfy the equations. -/
def Holds (d : Dictionary) (q : Nat → Rat) : Prop :=
  ∀ e ∈ d.bound, q e.1 = e.2.eval (d.free.map q)

def names (d : Dictionary) : List Nat := d.free ++ d.bound.map (·.1)

/-- Every form has a coefficient for each free quantity, and no quantity is there twice. -/
structure WellFormed (d : Dictionary) : Prop where
  bound : ∀ e ∈ d.bound, e.2.coefficients.length = d.free.length
  goal : d.goal.coefficients.length = d.free.length
  later : d.later.coefficients.length = d.free.length
  names : d.names.Nodup

/-- The point at which the free quantities are zero is one of the program. -/
def Feasible (d : Dictionary) : Prop := ∀ e ∈ d.bound, 0 ≤ e.2.constant

/-- Both say the same about the same quantities. -/
structure SameSystem (d e : Dictionary) : Prop where
  names : ∀ name ∈ e.names, name ∈ d.names
  holds (q : Nat → Rat) : e.Holds q ↔ d.Holds q
  goal (q : Nat → Rat) : d.Holds q → e.goal.eval (e.free.map q) = d.goal.eval (d.free.map q)
  later (q : Nat → Rat) : d.Holds q → e.later.eval (e.free.map q) = d.later.eval (d.free.map q)

theorem SameSystem.trans {c d e : Dictionary} (hcd : c.SameSystem d) (hde : d.SameSystem e) :
    c.SameSystem e where
  names name h := hcd.names name (hde.names name h)
  holds q := (hde.holds q).trans (hcd.holds q)
  goal q h := (hde.goal q ((hcd.holds q).mpr h)).trans (hcd.goal q h)
  later q h := (hde.later q ((hcd.holds q).mpr h)).trans (hcd.later q h)

theorem sameSystem_refl (d : Dictionary) : d.SameSystem d :=
  ⟨fun _ => id,fun _ => .rfl,fun _ _ => rfl,fun _ _ => rfl⟩

/-- The bound quantity of this name can change places with the free one at position `k`. -/
structure Pivots (d : Dictionary) (k name : Nat) (row : Form) : Prop where
  position : k < d.free.length
  mem : (name,row) ∈ d.bound
  nonzero : row.coefficients.getD k 0 ≠ 0

variable {d : Dictionary} {k name : Nat} {row : Form}

theorem Pivots.getD_map (h : d.Pivots k name row) (q : Nat → Rat) :
    (d.free.map q).getD k 0 = q (d.free.getD k 0) := by
  rw [List.getD_eq_getElem _ _ h.position, List.getD_eq_getElem _ _ (by simpa using h.position),
    List.getElem_map]

namespace WellFormed

variable (hd : d.WellFormed)
include hd

theorem bound_names : (d.bound.map (·.1)).Nodup := (List.nodup_append.mp hd.names).2.1

theorem lookup_of_mem (h : (name,row) ∈ d.bound) : d.bound.lookup name = some row :=
  (lookup_eq_some_iff_mem hd.bound_names).mpr h

theorem free_not_bound {free : Nat} (h : free ∈ d.free) : free ∉ d.bound.map (·.1) :=
  fun hbound => (List.nodup_append.mp hd.names).2.2 free h free hbound rfl

/-- A pivot gives two quantities each other's names. -/
theorem swapped (h : d.Pivots k name row) :
    d.free.map (Equiv.swap (d.free.getD k 0) name) = d.free.set k name ∧
    d.bound.map (Equiv.swap (d.free.getD k 0) name ∘ (·.1)) =
      d.bound.map fun e => if e.1 = name then d.free.getD k 0 else e.1 := by
  have hfree := (List.nodup_append.mp hd.names).1
  have hk := h.position
  have hentering : d.free.getD k 0 = d.free[k] := List.getD_eq_getElem _ _ hk
  have hname : name ∉ d.free := fun hmem =>
    hd.free_not_bound hmem (List.mem_map.mpr ⟨_,h.mem,rfl⟩)
  rw [hentering]
  constructor
  · refine List.ext_getElem (by simp) fun j hj _ => ?_
    have hj : j < d.free.length := by simpa using hj
    rw [List.getElem_map, List.getElem_set]
    split
    case isTrue heq =>
      subst heq
      exact Equiv.swap_apply_left _ _
    case isFalse hne =>
      refine Equiv.swap_apply_of_ne_of_ne (fun heq => ?_) fun heq => ?_
      · exact hne ((hfree.getElem_inj_iff).mp heq).symm
      · exact hname (heq ▸ List.getElem_mem hj)
  · refine List.map_congr_left fun e he => ?_
    dsimp only [Function.comp]
    split
    case isTrue heq =>
      rw [heq]
      exact Equiv.swap_apply_right _ _
    case isFalse hne =>
      refine Equiv.swap_apply_of_ne_of_ne (fun heq => ?_) hne
      have hmem : e.1 ∈ d.free := heq ▸ List.getElem_mem hk
      exact hd.free_not_bound hmem (List.mem_map.mpr ⟨e,he,rfl⟩)

theorem pivot_eq (h : d.Pivots k name row) : d.pivot k name =
    { free := d.free.set k name
      bound := d.bound.map fun e => if e.1 = name then (d.free.getD k 0,row.solve k)
        else (e.1,e.2.substitute k (row.solve k))
      goal := d.goal.substitute k (row.solve k)
      later := d.later.substitute k (row.solve k) } := by
  rw [pivot, hd.lookup_of_mem h.mem]

theorem pivot_names (h : d.Pivots k name row) :
    (d.pivot k name).names = d.names.map (Equiv.swap (d.free.getD k 0) name) := by
  obtain ⟨hfree,hbound⟩ := hd.swapped h
  rw [hd.pivot_eq h, Dictionary.names, Dictionary.names, List.map_append, List.map_map,
    List.map_map, hfree, hbound]
  refine congrArg (d.free.set k name ++ ·) (List.map_congr_left fun e _ => ?_)
  dsimp only [Function.comp]
  split <;> rfl

theorem mem_free_pivot (h : d.Pivots k name row) : name ∈ (d.pivot k name).free := by
  rw [hd.pivot_eq h]
  exact List.mem_iff_getElem.mpr ⟨k,by simpa using h.position,List.getElem_set_self _⟩

theorem length_solve (h : d.Pivots k name row) :
    (row.solve k).coefficients.length = d.free.length := by
  rw [Form.solve, List.length_set, List.length_map, hd.bound _ h.mem]

theorem pivot (h : d.Pivots k name row) : (d.pivot k name).WellFormed := by
  have hsolve := hd.length_solve h
  have hsubstitute : ∀ f : Form, f.coefficients.length = d.free.length →
      (f.substitute k (row.solve k)).coefficients.length = d.free.length := by
    intro f hf
    rw [Form.substitute, List.length_zipWith, List.length_set, hf, hsolve, min_self]
  have hnames : (d.pivot k name).names.Nodup := by
    rw [hd.pivot_names h]
    exact hd.names.map (Equiv.swap (d.free.getD k 0) name).injective
  rw [hd.pivot_eq h] at hnames ⊢
  exact {
    bound := by
      rw [List.length_set, List.forall_mem_map]
      intro e he
      split
      · exact hsolve
      · exact hsubstitute e.2 (hd.bound e he)
    goal := (hsubstitute _ hd.goal).trans List.length_set.symm
    later := (hsubstitute _ hd.later).trans List.length_set.symm
    names := hnames }

theorem solve_eval (h : d.Pivots k name row) (q : Nat → Rat) :
    (row.solve k).eval ((d.free.set k name).map q) = q (d.free.getD k 0)+
      (q name-row.eval (d.free.map q))/row.coefficients.getD k 0 := by
  rw [List.map_set, Form.solve_eval ((hd.bound _ h.mem).symm ▸ h.position)
    (by simpa using h.position) h.nonzero, h.getD_map]

/-- Where the equation of the leaving quantity holds, its solution holds. -/
theorem solve_eval_of_holds (h : d.Pivots k name row) {q : Nat → Rat}
    (hq : q name = row.eval (d.free.map q)) :
    (row.solve k).eval ((d.free.set k name).map q) = q (d.free.getD k 0) := by
  rw [hd.solve_eval h, hq, sub_self, zero_div, add_zero]

theorem substitute_eval (h : d.Pivots k name row) {f : Form}
    (hf : f.coefficients.length = d.free.length) {q : Nat → Rat}
    (hq : q name = row.eval (d.free.map q)) :
    (f.substitute k (row.solve k)).eval ((d.free.set k name).map q) = f.eval (d.free.map q) := by
  have hlength : f.coefficients.length = (row.solve k).coefficients.length :=
    hf.trans (hd.length_solve h).symm
  have hsolved := hd.solve_eval_of_holds h hq
  rw [List.map_set] at hsolved ⊢
  rw [Form.substitute_eval hlength, hsolved, h.getD_map, sub_self, mul_zero, add_zero]

theorem eq_of_mem (h : d.Pivots k name row) {e : Nat × Form} (he : e ∈ d.bound)
    (hname : e.1 = name) : e.2 = row := by
  subst hname
  have hrow : d.bound.lookup e.1 = some e.2 := hd.lookup_of_mem he
  rw [hd.lookup_of_mem h.mem] at hrow
  exact (Option.some.inj hrow).symm

theorem pivot_sameSystem (h : d.Pivots k name row) : d.SameSystem (d.pivot k name) := by
  have hrow : ∀ q, d.Holds q → q name = row.eval (d.free.map q) := fun q hq => hq _ h.mem
  have hnames : ∀ x ∈ (d.pivot k name).names, x ∈ d.names := by
    have hentering : d.free.getD k 0 ∈ d.names := by
      rw [List.getD_eq_getElem _ _ h.position]
      exact List.mem_append_left _ (List.getElem_mem _)
    have hleaving : name ∈ d.names :=
      List.mem_append_right _ (List.mem_map.mpr ⟨_,h.mem,rfl⟩)
    rw [hd.pivot_names h]
    intro x hx
    obtain ⟨y,hy,rfl⟩ := List.mem_map.mp hx
    rw [Equiv.swap_apply_def]
    split
    · exact hleaving
    · split
      · exact hentering
      · exact hy
  rw [hd.pivot_eq h] at hnames ⊢
  refine ⟨hnames,fun q => ⟨fun hq => ?_,fun hq => ?_⟩,fun q hq => ?_,fun q hq => ?_⟩
  · have hentering := hq _ (List.mem_map.mpr ⟨_,h.mem,if_pos rfl⟩)
    rw [hd.solve_eval h, left_eq_add, div_eq_zero_iff, or_iff_left h.nonzero, sub_eq_zero]
      at hentering
    intro e he
    by_cases hname : e.1 = name
    · rw [hd.eq_of_mem h he hname, hname, hentering]
    · have hothers := hq _ (List.mem_map.mpr ⟨e,he,if_neg hname⟩)
      rwa [hd.substitute_eval h (hd.bound e he) hentering] at hothers
  · refine List.forall_mem_map.mpr fun e he => ?_
    by_cases hname : e.1 = name
    · rw [if_pos hname]
      exact (hd.solve_eval_of_holds h (hrow q hq)).symm
    · rw [if_neg hname]
      exact (hq e he).trans (hd.substitute_eval h (hd.bound e he) (hrow q hq)).symm
  · exact hd.substitute_eval h hd.goal (hrow q hq)
  · exact hd.substitute_eval h hd.later (hrow q hq)

end WellFormed

/-! ## Choosing what to pivot -/

/-- A scan that keeps the better one of two ends with one that nothing is better than. -/
theorem foldl_best {β : Type} {choose : Option β → β → Option β} (key : β → Rat)
    (hnone : ∀ c, choose none c = some c)
    (hsome : ∀ b c, (choose (some b) c = some c ∧ key c ≤ key b) ∨
      (choose (some b) c = some b ∧ key b ≤ key c)) (l : List β) :
    (l.foldl choose none = none → l = []) ∧
    ∀ m, l.foldl choose none = some m → m ∈ l ∧ ∀ c ∈ l, key m ≤ key c := by
  induction l using List.reverseRecOn with
  | nil => exact ⟨fun _ => rfl,nofun⟩
  | append_singleton l c ih =>
    obtain ⟨hempty,hbest⟩ := ih
    rw [List.foldl_concat]
    cases hl : l.foldl choose none with
    | none =>
      obtain rfl := hempty hl
      rw [hnone]
      refine ⟨nofun,fun m hm => ?_⟩
      obtain rfl := Option.some.inj hm
      simp
    | some b =>
      obtain ⟨hmem,hleast⟩ := hbest b hl
      rcases hsome b c with ⟨heq,hkey⟩ | ⟨heq,hkey⟩
      · rw [heq]
        refine ⟨nofun,fun m hm => ?_⟩
        obtain rfl := Option.some.inj hm
        refine ⟨by simp,fun x hx => ?_⟩
        rcases List.mem_append.mp hx with hx | hx
        · exact hkey.trans (hleast x hx)
        · exact (List.mem_singleton.mp hx) ▸ le_rfl
      · rw [heq]
        refine ⟨nofun,fun m hm => ?_⟩
        obtain rfl := Option.some.inj hm
        refine ⟨List.mem_append_left _ hmem,fun x hx => ?_⟩
        rcases List.mem_append.mp hx with hx | hx
        · exact hleast x hx
        · exact (List.mem_singleton.mp hx) ▸ hkey

theorem smaller_cases {β : Type} (key : β → Rat) (b c : β) :
    ((if key c < key b then some c else some b) = some c ∧ key c ≤ key b) ∨
      ((if key c < key b then some c else some b) = some b ∧ key b ≤ key c) := by
  split
  case isTrue hlt => exact .inl ⟨rfl,hlt.le⟩
  case isFalse hge => exact .inr ⟨rfl,not_lt.mp hge⟩

theorem entering?_lt (h : d.entering? = some k) : k < d.free.length := by
  obtain ⟨c,hc,rfl⟩ := Option.map_eq_some_iff.mp h
  have hmem := ((foldl_best (fun c => (c.1.1 : Rat)) (fun _ => rfl) (fun b c => ?_) _).2 c hc).1
  · have hzip := (List.mem_filter.mp hmem).1
    have hlt := List.snd_lt_of_mem_zipIdx hzip
    rw [List.length_zip] at hlt
    omega
  · dsimp only
    split
    case isTrue hlt => exact .inl ⟨rfl,Nat.cast_le.mpr hlt.le⟩
    case isFalse hge => exact .inr ⟨rfl,Nat.cast_le.mpr (not_lt.mp hge)⟩

/-- The quantity that leaves is bound by a row which decreases, and is zero first. -/
structure Leaves (d : Dictionary) (k name : Nat) (row : Form) : Prop where
  mem : (name,row) ∈ d.bound
  decreasing : row.coefficients.getD k 0 < 0
  first : ∀ e ∈ d.bound, e.2.coefficients.getD k 0 < 0 →
    -row.constant/row.coefficients.getD k 0 ≤ -e.2.constant/e.2.coefficients.getD k 0

theorem leaving?_eq_some (h : d.leaving? k = some name) : ∃ row, d.Leaves k name row := by
  have hlimits : ∀ c, c ∈ d.limits k ↔ ∃ e ∈ d.bound, e.2.coefficients.getD k 0 < 0 ∧
      (e.1,-e.2.constant/e.2.coefficients.getD k 0) = c := by
    intro c
    simp only [limits, List.mem_filterMap, Option.ite_none_right_eq_some, Option.some_inj]
  obtain ⟨c,hc,rfl⟩ := Option.map_eq_some_iff.mp h
  have hbest := (foldl_best (fun c : Nat × Rat => c.2) (fun _ => rfl) (fun b c => ?_) _).2 c hc
  · obtain ⟨hmem,hleast⟩ := hbest
    obtain ⟨⟨name,row⟩,hrow,hdecreasing,rfl⟩ := (hlimits c).mp hmem
    exact ⟨row,hrow,hdecreasing,fun e he hlt => hleast _ ((hlimits _).mpr ⟨e,he,hlt,rfl⟩)⟩
  · dsimp only
    split
    case isTrue hlt =>
      refine .inl ⟨rfl,?_⟩
      simp only [Bool.or_eq_true, Bool.and_eq_true, decide_eq_true_eq, beq_iff_eq] at hlt
      rcases hlt with hlt | ⟨heq,-⟩
      · exact hlt.le
      · exact heq.le
    case isFalse hge =>
      refine .inr ⟨rfl,?_⟩
      simp only [Bool.or_eq_true, decide_eq_true_eq, not_or, not_lt] at hge
      exact hge.1

theorem Leaves.pivots (h : d.Leaves k name row) (hk : k < d.free.length) :
    d.Pivots k name row := ⟨hk,h.mem,h.decreasing.ne⟩

/-! ## Pivots that keep a point of the program -/

theorem WellFormed.pivot_feasible (hd : d.WellFormed) (h : d.Pivots k name row)
    (hentry : 0 ≤ (row.solve k).constant) (hothers : ∀ e ∈ d.bound, e.1 ≠ name →
      0 ≤ e.2.constant+e.2.coefficients.getD k 0*(row.solve k).constant) :
    (d.pivot k name).Feasible := by
  rw [hd.pivot_eq h]
  refine List.forall_mem_map.mpr fun e he => ?_
  split
  case isTrue => exact hentry
  case isFalse hne => exact hothers e he hne

theorem WellFormed.pivot_feasible_of_leaves (hd : d.WellFormed) (hfeasible : d.Feasible)
    (h : d.Leaves k name row) (hk : k < d.free.length) : (d.pivot k name).Feasible := by
  have hentry : 0 ≤ (row.solve k).constant :=
    div_nonneg_of_nonpos (neg_nonpos.mpr (hfeasible _ h.mem)) h.decreasing.le
  refine hd.pivot_feasible (h.pivots hk) hentry fun e he _ => ?_
  by_cases hlt : e.2.coefficients.getD k 0 < 0
  · have hfirst := mul_le_mul_of_nonpos_left (h.first e he hlt) hlt.le
    rw [mul_div_cancel₀ _ hlt.ne] at hfirst
    exact neg_le_iff_add_nonneg'.mp hfirst
  · exact add_nonneg (hfeasible e he) (mul_nonneg (not_lt.mp hlt) hentry)

theorem WellFormed.pivot_feasible_of_zero (hd : d.WellFormed) (hfeasible : d.Feasible)
    (h : d.Pivots k name row) (hzero : row.constant = 0) : (d.pivot k name).Feasible := by
  have hentry : (row.solve k).constant = 0 := by rw [Form.solve, hzero, neg_zero, zero_div]
  refine hd.pivot_feasible h hentry.ge fun e he _ => ?_
  rw [hentry, mul_zero, add_zero]
  exact hfeasible e he

/-- The other dictionary is one of the same program, with a point of it. -/
structure Reaches (d e : Dictionary) : Prop where
  wellFormed : e.WellFormed
  feasible : e.Feasible
  same : d.SameSystem e

theorem reaches_optimize {fuel : Nat} {e : Dictionary} (hd : d.WellFormed)
    (hfeasible : d.Feasible) (h : d.optimize fuel = some e) : d.Reaches e := by
  induction fuel generalizing d with
  | zero => exact Option.some.inj h ▸ ⟨hd,hfeasible,sameSystem_refl d⟩
  | succ fuel ih =>
    rw [optimize] at h
    split at h
    case h_1 => exact Option.some.inj h ▸ ⟨hd,hfeasible,sameSystem_refl d⟩
    case h_2 k hk =>
      split at h
      case h_1 => cases h
      case h_2 name hname =>
        obtain ⟨row,hleaves⟩ := leaving?_eq_some hname
        have hlt := entering?_lt hk
        have hpivots := hleaves.pivots hlt
        have hrest := ih (hd.pivot hpivots) (hd.pivot_feasible_of_leaves hfeasible hleaves hlt) h
        exact ⟨hrest.wellFormed,hrest.feasible,(hd.pivot_sameSystem hpivots).trans hrest.same⟩

/-! ## The point at which the free quantities are zero -/

theorem value_of_not_bound (h : name ∉ d.bound.map (·.1)) : d.value name = 0 := by
  rw [value, lookup_eq_none_iff.mpr h]
  rfl

namespace WellFormed

variable (hd : d.WellFormed)
include hd

theorem value_bound {e : Nat × Form} (he : e ∈ d.bound) : d.value e.1 = e.2.constant := by
  have hrow : d.bound.lookup e.1 = some e.2 := hd.lookup_of_mem he
  rw [value, hrow]
  rfl

theorem eval_value (f : Form) : f.eval (d.free.map d.value) = f.constant := by
  have hzeros : ∀ x ∈ d.free.map d.value, x = 0 := List.forall_mem_map.mpr fun name hname =>
    value_of_not_bound (hd.free_not_bound hname)
  rw [Form.eval, product_of_zeros hzeros, add_zero]

theorem holds_value : d.Holds d.value := fun e he => by
  rw [hd.value_bound he, hd.eval_value]

theorem value_nonneg (hfeasible : d.Feasible) (name : Nat) : 0 ≤ d.value name := by
  by_cases hname : name ∈ d.bound.map (·.1)
  · obtain ⟨e,he,rfl⟩ := List.mem_map.mp hname
    rw [hd.value_bound he]
    exact hfeasible e he
  · exact (value_of_not_bound hname).ge

end WellFormed

/-! ## Leaving out a quantity that is zero -/

/-- The dictionary without a quantity, whose equation is dropped if it is bound. -/
def erased (d : Dictionary) (name : Nat) : Dictionary :=
  let k := d.free.idxOf name
  let shorten := fun f : Form => ⟨f.constant,f.coefficients.eraseIdx k⟩
  { free := d.free.eraseIdx k
    bound := (d.bound.filter (·.1 ≠ name)).map fun (name,f) => (name,shorten f)
    goal := shorten d.goal
    later := shorten d.later }

/-- What is left out is zero, and was not needed to say so. -/
structure LeavesOut (d : Dictionary) (name : Nat) (e : Dictionary) : Prop where
  names : name ∉ e.names
  holds (q : Nat → Rat) : q name = 0 → e.Holds q → d.Holds q
  later (q : Nat → Rat) : q name = 0 → e.Holds q →
    e.later.eval (e.free.map q) = d.later.eval (d.free.map q)

theorem eval_erased (f : Form) {q : Nat → Rat} (hq : q name = 0) :
    Form.eval ⟨f.constant,f.coefficients.eraseIdx (d.free.idxOf name)⟩
      ((d.free.eraseIdx (d.free.idxOf name)).map q) = f.eval (d.free.map q) := by
  have hzero : (d.free.map q).getD (d.free.idxOf name) 0 = 0 := by
    by_cases hmem : name ∈ d.free
    · have hlt := List.idxOf_lt_length_of_mem hmem
      rw [List.getD_eq_getElem _ _ (by simpa using hlt), List.getElem_map, List.getElem_idxOf hlt,
        hq]
    · rw [List.idxOf_eq_length hmem, List.getD_eq_default _ _ (by simp)]
  have herase := product_eraseIdx f.coefficients (d.free.map q) (d.free.idxOf name)
  rw [hzero, mul_zero, add_zero] at herase
  rw [Form.eval, Form.eval, herase, List.eraseIdx_map]

namespace WellFormed

variable (hd : d.WellFormed)
include hd

theorem erased (name : Nat) : (d.erased name).WellFormed := by
  have hlength : ∀ f : Form, f.coefficients.length = d.free.length →
      (f.coefficients.eraseIdx (d.free.idxOf name)).length =
        (d.free.eraseIdx (d.free.idxOf name)).length := by
    intro f hf
    rw [List.length_eraseIdx, List.length_eraseIdx, hf]
  have hbound : ((d.erased name).bound.map (·.1)).Sublist (d.bound.map (·.1)) := by
    rw [Dictionary.erased, List.map_map]
    exact List.filter_sublist.map _
  exact {
    bound := List.forall_mem_map.mpr fun e he => hlength _ (hd.bound e (List.mem_of_mem_filter he))
    goal := hlength _ hd.goal
    later := hlength _ hd.later
    names := hd.names.sublist ((List.eraseIdx_sublist _ _).append hbound) }

theorem erased_leavesOut
    (hname : ∀ e ∈ d.bound, e.1 = name → e.2.constant = 0 ∧ ∀ c ∈ e.2.coefficients, c = 0) :
    d.LeavesOut name (d.erased name) where
  names := by
    intro hmem
    rcases List.mem_append.mp hmem with hfree | hbound
    · rw [Dictionary.erased, ← List.erase_eq_eraseIdx_of_idxOf rfl] at hfree
      exact (List.nodup_append.mp hd.names).1.not_mem_erase hfree
    · rw [Dictionary.erased, List.map_map] at hbound
      obtain ⟨e,he,heq⟩ := List.mem_map.mp hbound
      exact of_decide_eq_true (List.mem_filter.mp he).2 heq
  holds q hq h e he := by
    by_cases heq : e.1 = name
    · obtain ⟨hconstant,hcoefficients⟩ := hname e he heq
      rw [heq, hq, Form.eval, hconstant, product_of_zero_coefficients hcoefficients, add_zero]
    · have hkept := h _ (List.mem_map.mpr
        ⟨e,List.mem_filter.mpr ⟨he,decide_eq_true heq⟩,rfl⟩)
      exact hkept.trans (eval_erased e.2 hq)
  later q hq _ := eval_erased d.later hq

end WellFormed

theorem erased_feasible (hfeasible : d.Feasible) (name : Nat) : (d.erased name).Feasible :=
  List.forall_mem_map.mpr fun e he => hfeasible e (List.mem_of_mem_filter he)

theorem SameSystem.leavesOut {e f : Dictionary} (hsame : d.SameSystem e) (h : e.LeavesOut name f) :
    d.LeavesOut name f where
  names := h.names
  holds q hq hf := (hsame.holds q).mp (h.holds q hq hf)
  later q hq hf :=
    (h.later q hq hf).trans (hsame.later q ((hsame.holds q).mp (h.holds q hq hf)))

theorem drop_eq (d : Dictionary) (name : Nat) : d.drop name =
    (((d.bound.lookup name).bind fun f => f.coefficients.findIdx? (· != 0)).elim d
      (d.pivot · name)).erased name := by
  unfold drop
  cases d.bound.lookup name <;> rfl

/-- A quantity that is zero where the free ones are is made free and left out, unless it is zero
everywhere. -/
theorem drop_leavesOut (hd : d.WellFormed) (hfeasible : d.Feasible) (hzero : d.value name = 0) :
    (d.drop name).WellFormed ∧ (d.drop name).Feasible ∧ d.LeavesOut name (d.drop name) := by
  have herased : ∀ e : Dictionary, e.WellFormed → e.Feasible → d.SameSystem e →
      (∀ f ∈ e.bound, f.1 = name → f.2.constant = 0 ∧ ∀ c ∈ f.2.coefficients, c = 0) →
      (e.erased name).WellFormed ∧ (e.erased name).Feasible ∧ d.LeavesOut name (e.erased name) :=
    fun e he hpoint hsame hname => ⟨he.erased name,erased_feasible hpoint name,
      hsame.leavesOut (he.erased_leavesOut hname)⟩
  rw [drop_eq]
  cases hlookup : d.bound.lookup name with
  | none =>
    refine herased d hd hfeasible (sameSystem_refl d) fun e he heq => ?_
    exact absurd (List.mem_map.mpr ⟨e,he,heq⟩) (lookup_eq_none_iff.mp hlookup)
  | some row =>
    have hrow : (name,row) ∈ d.bound := (lookup_eq_some_iff_mem hd.bound_names).mp hlookup
    have hconstant : row.constant = 0 := (hd.value_bound hrow).symm.trans hzero
    rw [Option.bind_some]
    cases hposition : row.coefficients.findIdx? (· != 0) with
    | none =>
      have hcoefficients : ∀ c ∈ row.coefficients, c = 0 := by
        simpa using List.findIdx?_eq_none_iff.mp hposition
      refine herased d hd hfeasible (sameSystem_refl d) fun e he heq => ?_
      have hsame : d.bound.lookup name = some e.2 := heq ▸ hd.lookup_of_mem he
      obtain rfl := Option.some.inj (hlookup.symm.trans hsame)
      exact ⟨hconstant,hcoefficients⟩
    | some k =>
      obtain ⟨hlt,hne,-⟩ := List.findIdx?_eq_some_iff_getElem.mp hposition
      have hpivots : d.Pivots k name row := {
        position := hd.bound _ hrow ▸ hlt
        mem := hrow
        nonzero := by
          rw [List.getD_eq_getElem _ _ hlt]
          simpa using hne }
      refine herased (d.pivot k name) (hd.pivot hpivots)
        (hd.pivot_feasible_of_zero hfeasible hpivots hconstant) (hd.pivot_sameSystem hpivots)
        fun e he heq => ?_
      have hfree := hd.mem_free_pivot hpivots
      exact absurd (List.mem_map.mpr ⟨e,he,heq⟩) ((hd.pivot hpivots).free_not_bound hfree)

end Dictionary

namespace LinearProgram

open Dictionary

/-! ## Finding a point of the program -/

theorem mostViolated?_eq_none {d : Dictionary} (h : mostViolated? d = none) : d.Feasible := by
  have hempty := (foldl_best (fun e : Nat × Form => e.2.constant) (fun _ => rfl)
    (smaller_cases _) _).1 (Option.map_eq_none_iff.mp h)
  intro e he
  have hnot := List.filter_eq_nil_iff.mp hempty e he
  simpa using hnot

theorem mostViolated?_eq_some {d : Dictionary} {name : Nat} (h : mostViolated? d = some name) :
    ∃ row, (name,row) ∈ d.bound ∧ row.constant < 0 ∧
      ∀ e ∈ d.bound, row.constant ≤ e.2.constant := by
  obtain ⟨c,hc,rfl⟩ := Option.map_eq_some_iff.mp h
  obtain ⟨hmem,hleast⟩ := (foldl_best (fun e : Nat × Form => e.2.constant) (fun _ => rfl)
    (smaller_cases _) _).2 c hc
  obtain ⟨hbound,hneg⟩ := List.mem_filter.mp hmem
  have hneg : c.2.constant < 0 := of_decide_eq_true hneg
  refine ⟨c.2,hbound,hneg,fun e he => ?_⟩
  by_cases hlt : e.2.constant < 0
  · exact hleast e (List.mem_filter.mpr ⟨he,decide_eq_true hlt⟩)
  · exact hneg.le.trans (not_lt.mp hlt)

/-- Quantity 0 can be added to every form, and the goal is to make it small. -/
structure Relaxed (d : Dictionary) : Prop where
  first : d.free.head? = some 0
  bound : ∀ e ∈ d.bound, e.2.coefficients.getD 0 0 = 1
  goal (q : Nat → Rat) : d.goal.eval (d.free.map q) = -q 0

theorem feasible?_leavesOut {d e : Dictionary} (hd : d.WellFormed) (hrelaxed : Relaxed d)
    (h : feasible? d = some e) : e.WellFormed ∧ e.Feasible ∧ d.LeavesOut 0 e := by
  have hzero : 0 ∈ d.free := List.mem_of_head? hrelaxed.first
  rw [feasible?] at h
  split at h
  case h_1 hnone =>
    obtain rfl := Option.some.inj h
    exact drop_leavesOut hd (mostViolated?_eq_none hnone)
      (value_of_not_bound (hd.free_not_bound hzero))
  case h_2 name hname =>
    obtain ⟨row,hrow,hneg,hleast⟩ := mostViolated?_eq_some hname
    have hone := hrelaxed.bound _ hrow
    have hpivots : d.Pivots 0 name row := ⟨List.length_pos_of_mem hzero,hrow,hone ▸ one_ne_zero⟩
    have hentry : (row.solve 0).constant = -row.constant := by rw [Form.solve, hone, div_one]
    have hfeasible : (d.pivot 0 name).Feasible := by
      refine hd.pivot_feasible hpivots (by linarith) fun f hf _ => ?_
      rw [hrelaxed.bound f hf, hentry]
      linarith [hleast f hf]
    dsimp only at h
    split at h
    case h_1 => cases h
    case h_2 f hf =>
      obtain ⟨hnegative,h⟩ := Option.ite_none_left_eq_some.mp h
      obtain rfl := Option.some.inj h
      have hreaches := reaches_optimize (hd.pivot hpivots) hfeasible hf
      have hsame := (hd.pivot_sameSystem hpivots).trans hreaches.same
      -- The goal is at least zero at the point that is reached, so quantity 0 is zero there.
      have hgoal := hsame.goal f.value ((hsame.holds f.value).mp hreaches.wellFormed.holds_value)
      rw [hreaches.wellFormed.eval_value, hrelaxed.goal] at hgoal
      have hnonneg := hreaches.wellFormed.value_nonneg hreaches.feasible 0
      have hvalue : f.value 0 = 0 := by linarith
      obtain ⟨hwell,hpoint,hout⟩ :=
        drop_leavesOut hreaches.wellFormed hreaches.feasible hvalue
      exact ⟨hwell,hpoint,hsame.leavesOut hout⟩

/-! ## The dictionary of a program -/

/-- The variables as quantities show them. -/
def shifted (n : Nat) (q : Nat → Rat) : List Rat := (List.range n).map fun j => q (j+1)-q (n+1)

def splitCoefficients (first : Rat) (cs : List Rat) : List Rat :=
  first :: cs.map (-·) ++ [cs.foldl (·+·) 0]

theorem length_splitCoefficients (first : Rat) (cs : List Rat) :
    (splitCoefficients first cs).length = cs.length+2 := by
  simp [splitCoefficients]

theorem product_sub {cs xs : List Rat} (h : cs.length = xs.length) (shift : Rat) :
    product cs (xs.map (·-shift)) = product cs xs-cs.foldl (·+·) 0*shift := by
  rw [← List.sum_eq_foldl]
  induction cs generalizing xs with
  | nil => simp [product]
  | cons c cs ih =>
    cases xs with
    | nil => cases h
    | cons x xs =>
      rw [List.map_cons, product, product, ih (Nat.succ.inj h), List.sum_cons]
      ring

theorem product_splitCoefficients {n : Nat} {cs : List Rat} (hcs : cs.length = n) (first : Rat)
    (q : Nat → Rat) : product (splitCoefficients first cs) ((List.range (n+2)).map q) =
      first*q 0-product cs (shifted n q) := by
  have hrange : (List.range (n+2)).map q =
      q 0 :: ((List.range n).map fun j => q (j+1)) ++ [q (n+1)] := by
    rw [List.range_succ, List.range_succ_eq_map]
    simp
  have hshifted : shifted n q = ((List.range n).map fun j => q (j+1)).map (·-q (n+1)) := by
    rw [List.map_map]
    rfl
  have hneg : cs.map (-·) = cs.map (-1*·) := List.map_congr_left fun c _ => by ring
  have hlength : cs.length = ((List.range n).map fun j => q (j+1)).length := by simp [hcs]
  rw [hrange, hshifted, product_sub hlength, splitCoefficients, List.cons_append, List.cons_append,
    product, hneg, product_append (by simpa using hlength), product_map_mul]
  simp only [product]
  ring

variable {n : Nat} {costs : List Rat} {system : List Inequality}

theorem dictionary_eq (n : Nat) (costs : List Rat) (system : List Inequality) :
    dictionary n costs system =
      { free := List.range (n+2)
        bound := system.zipIdx.map fun i =>
          (n+2+i.2,⟨i.1.bound,splitCoefficients 1 i.1.coefficients⟩)
        goal := ⟨0,splitCoefficients (-1) (List.replicate n 0)⟩
        later := ⟨0,splitCoefficients 0 costs⟩ } := rfl

theorem dictionary_wellFormed (hcosts : costs.length = n)
    (hsystem : InVariables n system) :
    (dictionary n costs system).WellFormed := by
  rw [dictionary_eq]
  exact {
    bound := by
      refine List.forall_mem_map.mpr fun i hi => ?_
      rw [length_splitCoefficients, hsystem _ (List.fst_mem_of_mem_zipIdx hi), List.length_range]
    goal := by rw [length_splitCoefficients, List.length_replicate, List.length_range]
    later := by rw [length_splitCoefficients, hcosts, List.length_range]
    names := by
      have hnames : (system.zipIdx.map fun i => n+2+i.2) =
          (List.range system.length).map (n+2+·) := by
        rw [List.range_eq_range', ← List.zipIdx_map_snd 0 system, List.map_map]
        rfl
      rw [names, List.map_map]
      exact (congrArg List.Nodup ((congrArg (List.range (n+2) ++ ·) hnames).trans
        List.range_add.symm)).mpr List.nodup_range }

theorem dictionary_relaxed : Relaxed (dictionary n costs system) := by
  rw [dictionary_eq]
  refine ⟨?_,List.forall_mem_map.mpr fun i _ => rfl,fun q => ?_⟩
  · simp [List.range_succ_eq_map]
  · rw [Form.eval, product_splitCoefficients List.length_replicate, product_of_zero_coefficients]
    · ring
    · simp

/-- What is read off a dictionary of the program. -/
theorem dictionary_holds (hsystem : InVariables n system) {q : Nat → Rat}
    (hzero : q 0 = 0) (hq : (dictionary n costs system).Holds q) (hnonneg : ∀ name, 0 ≤ q name) :
    ∀ i ∈ system, product i.coefficients (shifted n q) ≤ i.bound := by
  intro i hi
  obtain ⟨k,hk,rfl⟩ := List.mem_iff_getElem.mp hi
  have hmem : (system[k],k) ∈ system.zipIdx := by
    rw [List.mk_mem_zipIdx_iff_getElem?, List.getElem?_eq_getElem hk]
  have hslack : q (n+2+k) =
      Form.eval ⟨system[k].bound,splitCoefficients 1 system[k].coefficients⟩
        ((List.range (n+2)).map q) := hq _ (List.mem_map.mpr ⟨_,hmem,rfl⟩)
  rw [Form.eval, product_splitCoefficients (hsystem _ hi), hzero] at hslack
  linarith [hnonneg (n+2+k)]

/-- Whatever point is returned is one of the program, and its value is the one that is returned. -/
theorem minimize_sound (hcosts : costs.length = n)
    (hsystem : InVariables n system) {value : Rat} {point : List Rat}
    (h : minimize n costs system = .optimal value point) :
    point.length = n ∧ (∀ i ∈ system, product i.coefficients point ≤ i.bound) ∧
      value = product costs point := by
  rw [minimize] at h
  split at h
  case h_1 => cases h
  case h_2 d hd =>
    obtain ⟨hwell,hfeasible,hout⟩ :=
      feasible?_leavesOut (dictionary_wellFormed hcosts hsystem) dictionary_relaxed hd
    split at h
    case h_1 => cases h
    case h_2 e he =>
      have hgoal : Dictionary.WellFormed { d with goal := d.later } :=
        ⟨hwell.bound,hwell.later,hwell.later,hwell.names⟩
      have hreaches := reaches_optimize hgoal hfeasible he
      obtain ⟨rfl,rfl⟩ := Verdict.optimal.inj h
      have hvalue := hreaches.wellFormed.holds_value
      have hd := (hreaches.same.holds e.value).mp hvalue
      have hzero : e.value 0 = 0 := value_of_not_bound fun hmem =>
        hout.names (hreaches.same.names 0 (List.mem_append_right _ hmem))
      have hpoint := dictionary_holds hsystem hzero (hout.holds e.value hzero hd)
        (hreaches.wellFormed.value_nonneg hreaches.feasible)
      have hcost := (hreaches.same.goal e.value hd).trans (hout.later e.value hzero hd)
      rw [hreaches.wellFormed.eval_value, Form.eval, dictionary_eq,
        product_splitCoefficients hcosts] at hcost
      refine ⟨by simp,hpoint,?_⟩
      rw [hcost]
      change -(0+(0*e.value 0-product costs (shifted n e.value))) =
        product costs (shifted n e.value)
      ring

end LinearProgram
end SolverSession
