import Mathlib.Algebra.BigOperators.Fin
import Mathlib.Algebra.CharZero.Defs
import Mathlib.LinearAlgebra.Matrix.Symmetric
import Mathlib.Tactic.ByContra
import Mathlib.Tactic.Ring
import SolverSession.Decimal
import SolverSession.Quadratic
import SolverSession.Proofs.Flattening

/-!
# Values in exact arithmetic

The values of objective and constraints at a point, with coefficients read as numbers of a field.
For a model they are sums over the stored entries. For a flat model the objective is
`c·x + x·Q·x/2 + offset` with the dense costs and the symmetric matrix that the lower triangle stands
for. Flattening changes none of them.
-/
namespace SolverSession

open Finset Matrix

variable {α K : Type} [Field K]

/-! ## Models -/

/-- `v·x` -/
def SparseVec.dot (read : α → K) (v : SparseVec α) (x : Nat → K) : K :=
  (v.entries.map fun e => read e.2 * x e.1).sum

/-- What a one in the lower triangle of `Q` adds to `x·Q·x/2`. Off the diagonal it stands for two
entries of `Q`. -/
def lowerTerm (x : Nat → K) (row column : Nat) : K :=
  if row = column then x row * x column / 2 else x row * x column

/-- `x·Q·x/2`, from the stored columns of the lower triangle. -/
def Hessian.halfForm (read : α → K) (columns : List (SparseVec α)) (x : Nat → K) : K :=
  ((contributions 0 columns).map fun c => read c.value * lowerTerm x c.row c.column).sum

def Objective.value (read : α → K) (o : Objective α) (x : Nat → K) : K :=
  o.weights.dot read x + Hessian.halfForm read o.hessian x + read o.offset

/-- The value of the objective, and zero without one. -/
def Model.value (read : α → K) (m : Model α) (x : Nat → K) : K :=
  m.objective.elim 0 fun o => o.value read x

/-! ## Flat models -/

/-- An entry of a matrix that is stored column by column. -/
def StackedMatrix.entry (read : α → K) (h : StackedMatrix α) (row column : Nat) : K :=
  (((h.line? column).bind (·.get? row)).map read).getD 0

/-- The symmetric matrix with the Hessian as its lower triangle. -/
def FlatModel.quadratic (read : α → K) (f : FlatModel α) :
    Matrix (Fin f.numCols) (Fin f.numCols) K :=
  .of fun i j => f.hessian.elim 0 fun h => h.entry read (max i j) (min i j)

/-- `x·Q·x/2` -/
def FlatModel.halfForm (read : α → K) (f : FlatModel α) (x : Nat → K) : K :=
  let point : Fin f.numCols → K := fun j => x j
  point ⬝ᵥ (f.quadratic read *ᵥ point) / 2

def FlatModel.value (read : α → K) (f : FlatModel α) (x : Nat → K) : K :=
  (fun j : Fin f.numCols => (f.colCost.map read).getD j 0) ⬝ᵥ (fun j : Fin f.numCols => x j) +
    f.halfForm read x + read f.offset

def FlatModel.activity (read : α → K) (f : FlatModel α) (x : Nat → K) (k : Nat) : K :=
  (f.rows.line? k).elim 0 fun line => line.dot read x

/-! ## Sums over entries -/

theorem sum_lookup (read : α → K) {entries : List (Nat × α)} {n : Nat}
    (hkeys : (entries.map (·.1)).Nodup) (hbound : ∀ e ∈ entries, e.1 < n) (g : Nat → K) :
    ∑ i ∈ range n, ((entries.lookup i).map read).getD 0 * g i =
      (entries.map fun e => read e.2 * g e.1).sum := by
  induction entries with
  | nil => simp
  | cons e rest ih =>
    obtain ⟨k,v⟩ := e
    obtain ⟨hfresh,hkeys⟩ := List.nodup_cons.mp hkeys
    obtain ⟨hk,hbound⟩ := List.forall_mem_cons.mp hbound
    -- No other entry has the position of the first one, so at most one of the two terms counts.
    have hsplit : ∀ i, ((((k,v) :: rest).lookup i).map read).getD 0 * g i =
        (if i = k then read v * g k else 0) + ((rest.lookup i).map read).getD 0 * g i := by
      intro i
      by_cases hi : i = k
      · subst hi
        have hnone : rest.lookup i = none := lookup_eq_none_iff.mpr hfresh
        simp [hnone]
      · simp [List.lookup_cons, beq_false_of_ne hi, hi]
    rw [sum_congr rfl fun i _ => hsplit i, sum_add_distrib, ih hkeys hbound,
      sum_ite_eq' (range n) k, if_pos (mem_range.mpr hk), List.map_cons, List.sum_cons]

theorem SparseVec.sum_get? (read : α → K) {v : SparseVec α} {n : Nat}
    (hv : v.fault? n = none) (g : Nat → K) :
    ∑ i ∈ range n, ((v.get? i).map read).getD 0 * g i =
      (v.entries.map fun e => read e.2 * g e.1).sum := by
  obtain ⟨hparallel,hbound,hnodup⟩ := fault?_eq_none_iff.mp hv
  refine sum_lookup read (by rwa [entries_keys hparallel]) ?_ g
  intro e he
  exact hbound e.1 (List.of_mem_zip he).1

namespace Hessian

theorem sum_contributions (k : Nat) (columns : List (SparseVec α)) (F : Contribution α → K) :
    ((contributions k columns).map F).sum = ∑ j ∈ range columns.length,
      (((columns[j]?.getD .empty).entries).map fun e => F ⟨k+j,e.1,e.2⟩).sum := by
  induction columns generalizing k with
  | nil => simp [contributions]
  | cons column rest ih =>
    rw [contributions, List.map_append, List.sum_append, ih, List.length_cons, sum_range_succ',
      add_comm, List.map_map]
    simp only [List.getElem?_cons_succ, List.getElem?_cons_zero, Option.getD_some, add_zero,
      Function.comp_def, Nat.add_assoc, Nat.add_comm 1]

theorem contributions_eq_nil {k : Nat} {columns : List (SparseVec α)}
    (h : ∀ column ∈ columns, column.indices = []) : contributions k columns = [] := by
  induction columns generalizing k with
  | nil => rfl
  | cons column rest ih =>
    obtain ⟨hcolumn,hrest⟩ := List.forall_mem_cons.mp h
    simp [contributions, SparseVec.entries, hcolumn, ih hrest]

theorem contributions_append (k : Nat) (columns more : List (SparseVec α)) :
    contributions k (columns ++ more) =
      contributions k columns ++ contributions (k+columns.length) more := by
  induction columns generalizing k with
  | nil => rfl
  | cons column rest ih =>
    simp only [List.cons_append, contributions, ih, List.append_assoc, List.length_cons]
    rw [Nat.add_assoc, Nat.add_comm 1]

theorem halfForm_columns (read : α → K) (o : Objective α) (n : Nat) (x : Nat → K) :
    halfForm read (o.columns n) x = halfForm read o.hessian x := by
  -- The columns at the end have no entries.
  have hpadding : contributions (0+o.hessian.length)
      (List.replicate (n-o.hessian.length) (SparseVec.empty : SparseVec α)) = [] := by
    refine contributions_eq_nil fun column hcolumn => ?_
    rw [List.eq_of_mem_replicate hcolumn]
    rfl
  rw [halfForm, Objective.columns, contributions_append, hpadding, List.append_nil, halfForm]

/-- Entry of the lower triangle, zero where none is stored. -/
def lowerEntry (read : α → K) (columns : List (SparseVec α)) (row column : Nat) : K :=
  ((columns[column]?.bind (·.get? row)).map read).getD 0

theorem lowerEntry_eq_zero (read : α → K) {columns : List (SparseVec α)}
    (hdiag : firstAboveDiagonal 0 columns = none) {row column : Nat} (h : row < column) :
    lowerEntry read columns row column = 0 := by
  rw [lowerEntry]
  cases hc : columns[column]? with
  | none => rfl
  | some c =>
    have hlow := firstAboveDiagonal_eq_none_iff.mp hdiag column c hc
    have hfresh : row ∉ c.entries.map (·.1) := by
      intro hmem
      obtain ⟨e,he,rfl⟩ := List.mem_map.mp hmem
      have hge := hlow e.1 (List.of_mem_zip he).1
      omega
    have hnone : c.get? row = none := lookup_eq_none_iff.mpr hfresh
    simp [hnone]

theorem sum_symmetric [CharZero K] {lower : Nat → Nat → K}
    (hlower : ∀ row column, row < column → lower row column = 0) (x : Nat → K) (n : Nat) :
    (∑ i ∈ range n, x i * ∑ j ∈ range n, lower (max i j) (min i j) * x j) / 2 =
      ∑ j ∈ range n, ∑ i ∈ range n, lower i j * lowerTerm x i j := by
  -- Every place of the triangle is met twice, once from each side, and half of it on the diagonal.
  have hterm : ∀ i j, x i * (lower (max i j) (min i j) * x j) =
      lower i j * lowerTerm x i j + lower j i * lowerTerm x j i := by
    intro i j
    rcases Nat.lt_trichotomy i j with hij | rfl | hij
    · rw [hlower i j hij, max_eq_right hij.le, min_eq_left hij.le, lowerTerm, lowerTerm,
        if_neg hij.ne']
      ring
    · rw [max_self, min_self, lowerTerm, if_pos rfl]
      ring
    · rw [hlower j i hij, max_eq_left hij.le, min_eq_right hij.le, lowerTerm, if_neg hij.ne']
      ring
  have hboth : ∑ i ∈ range n, x i * ∑ j ∈ range n, lower (max i j) (min i j) * x j =
      ∑ j ∈ range n, ∑ i ∈ range n, lower i j * lowerTerm x i j +
        ∑ j ∈ range n, ∑ i ∈ range n, lower i j * lowerTerm x i j := by
    simp only [mul_sum, hterm, sum_add_distrib]
    rw [sum_comm]
  rw [hboth]
  ring

theorem sum_lowerEntry (read : α → K) {columns : List (SparseVec α)} {n : Nat}
    (hlen : columns.length = n) (hvalid : ∀ c ∈ columns, c.fault? n = none) (x : Nat → K) :
    ∑ j ∈ range n, ∑ i ∈ range n, lowerEntry read columns i j * lowerTerm x i j =
      halfForm read columns x := by
  rw [halfForm, sum_contributions, hlen]
  refine sum_congr rfl fun j hj => ?_
  have hj : j < columns.length := hlen ▸ mem_range.mp hj
  have hcolumn := SparseVec.sum_get? read (hvalid columns[j] (List.getElem_mem hj))
    fun i => lowerTerm x i j
  simpa [lowerEntry, List.getElem?_eq_getElem hj] using hcolumn

end Hessian

/-! ## Flattening -/

theorem FlatModel.quadratic_isSymm (read : α → K) (f : FlatModel α) :
    (f.quadratic read).IsSymm := by
  ext i j
  simp only [quadratic, transpose_apply, of_apply, max_comm (j : Nat), min_comm (j : Nat)]

theorem FlatModel.halfForm_eq (read : α → K) (f : FlatModel α) (x : Nat → K)
    {lower : Nat → Nat → K} (h : ∀ row column,
      (f.hessian.elim 0 fun h => h.entry read row column) = lower row column) :
    f.halfForm read x = (∑ i ∈ range f.numCols,
      x i * ∑ j ∈ range f.numCols, lower (max i j) (min i j) * x j) / 2 := by
  simp only [halfForm, dotProduct, mulVec, quadratic, of_apply, Finset.sum_range, h]

theorem FlatModel.value_eq (read : α → K) (f : FlatModel α) (x : Nat → K) :
    f.value read x = ∑ j ∈ range f.numCols, (f.colCost.map read).getD j 0 * x j +
      f.halfForm read x + read f.offset := by
  simp only [value, dotProduct, Finset.sum_range]

theorem SparseVec.sum_toDense [Zero α] {read : α → K} (hread : read 0 = 0) {v : SparseVec α}
    {n : Nat} (hv : v.fault? n = none) (x : Nat → K) :
    ∑ j ∈ range n, ((v.toDense n).map read).getD j 0 * x j = v.dot read x := by
  rw [dot, ← sum_get? read hv]
  refine sum_congr rfl fun j hj => ?_
  rw [List.getD_eq_getElem?_getD, List.getElem?_map, toDense_getElem? hv (mem_range.mp hj)]
  cases v.get? j with
  | none => exact congrArg (· * x j) hread
  | some c => rfl

theorem Objective.flattenHessian_form [CharZero K] (read : α → K) {o : Objective α} {n : Nat}
    {hessian : Option (StackedMatrix α)} (h : o.flattenHessian n = .ok hessian) (x : Nat → K) :
    ∃ lower : Nat → Nat → K,
      (∀ row column, (hessian.elim 0 fun h => h.entry read row column) = lower row column) ∧
      (∑ i ∈ range n, x i * ∑ j ∈ range n, lower (max i j) (min i j) * x j) / 2 =
        Hessian.halfForm read o.hessian x := by
  rcases flattenHessian_eq_ok_iff.mp h with ⟨hlinear,rfl⟩ | ⟨-,hlen,hvalid,hdiag,rfl⟩
  · -- There is no matrix, because no column has an index.
    have hempty : ∀ column ∈ o.hessian, column.indices = [] := by
      intro column hcolumn
      by_contra hne
      have hquad := isQuadratic_iff.mpr ⟨column,hcolumn,hne⟩
      rw [hlinear] at hquad
      cases hquad
    refine ⟨fun _ _ => 0,fun _ _ => rfl,?_⟩
    simp [Hessian.halfForm, Hessian.contributions_eq_nil hempty]
  · refine ⟨Hessian.lowerEntry read (o.columns n),fun row column => ?_,?_⟩
    · have hline := StackedMatrix.line?_concat .columnWise
        (fun line hmem => (SparseVec.fault?_eq_none_iff.mp (hvalid line hmem)).1) column
      rw [Option.elim_some, StackedMatrix.entry, hline, Hessian.lowerEntry]
    · rw [Hessian.sum_symmetric (fun _ _ => Hessian.lowerEntry_eq_zero read hdiag),
        Hessian.sum_lowerEntry read (columns_length hlen) hvalid, Hessian.halfForm_columns]

theorem Model.flatten_halfForm [Zero α] [CharZero K] (read : α → K) {m : Model α}
    {f : FlatModel α} {o : Objective α} (ho : m.objective = some o) (h : m.flatten = .ok f)
    (x : Nat → K) : f.halfForm read x = Hessian.halfForm read o.hessian x := by
  obtain ⟨hessian,hhessian,-,-,rfl⟩ := (flatten_eq_ok_iff_of_some ho).mp h
  obtain ⟨lower,hentry,hhalf⟩ := Objective.flattenHessian_form read hhessian x
  rw [FlatModel.halfForm_eq read _ x hentry]
  exact hhalf

theorem Model.flatten_value [Zero α] [CharZero K] {read : α → K} (hread : read 0 = 0)
    {m : Model α} {f : FlatModel α} (h : m.flatten = .ok f) (x : Nat → K) :
    f.value read x = m.value read x := by
  cases ho : m.objective with
  | none =>
    obtain ⟨-,rfl⟩ := (flatten_eq_ok_iff_of_none ho).mp h
    have hcosts : ∀ j, ((List.replicate m.vars.length 0).map read).getD j 0 = 0 := by
      intro j
      rw [List.map_replicate, hread, List.getD_eq_getElem?_getD, List.getElem?_replicate]
      split <;> rfl
    rw [FlatModel.value_eq, FlatModel.halfForm_eq read _ x fun _ _ => rfl, value, ho]
    simp only [toFlat, hcosts, zero_mul, mul_zero, sum_const_zero, zero_div, hread, add_zero,
      Option.elim_none]
  | some o =>
    have hhalf := flatten_halfForm read ho h x
    obtain ⟨hessian,-,hweights,-,rfl⟩ := (flatten_eq_ok_iff_of_some ho).mp h
    rw [FlatModel.value_eq, hhalf, value, ho]
    simp only [toFlat, SparseVec.sum_toDense hread hweights]
    rfl

theorem Model.flatten_activity [Zero α] {m : Model α} {f : FlatModel α} (h : m.flatten = .ok f)
    (read : α → K) (x : Nat → K) {k : Nat} {c : Constraint α} (hc : m.constraints[k]? = some c) :
    f.activity read x k = c.weights.dot read x := by
  rw [FlatModel.activity, (flatten_same h).1.row, hc]
  rfl

/-- Flattening keeps a model. Every list of the flat model is the one that the model describes, and
at every point objective and constraints have the values they have for the model, in whatever field
of characteristic zero the coefficients are read. -/
theorem Model.flatten_represents [Zero α] {m : Model α} {f : FlatModel α} (h : m.flatten = .ok f) :
    f.SameParts m ∧ f.SameObjective m ∧
      ∀ (K : Type) [Field K] [CharZero K] (read : α → K), read 0 = 0 →
        (f.quadratic read).IsSymm ∧ ∀ x : Nat → K, f.value read x = m.value read x ∧
          ∀ k c, m.constraints[k]? = some c → f.activity read x k = c.weights.dot read x := by
  obtain ⟨hparts,hobjective⟩ := flatten_same h
  refine ⟨hparts,hobjective,?_⟩
  intro K _ _ read hread
  refine ⟨f.quadratic_isSymm read,fun x => ⟨flatten_value hread h x,?_⟩⟩
  intro k c hc
  exact flatten_activity h read x hc

/-- A finite double as a rational. -/
def exactValue (x : Float) : ℚ :=
  let (mantissa,power) := Decimal.binary x
  (if 0x8000000000000000 ≤ x.toBits.toNat then -1 else 1) * mantissa * 2 ^ power

theorem exactValue_zero : exactValue 0 = 0 := by
  have hbinary : Decimal.binary 0 = (0,-1074) := by decide
  simp [exactValue, hbinary]

/-- Two variables, one of them named, and the Hessian column of the second one left out. -/
theorem Model.flatten_represents_two_variables :
    let m : Model Float := ⟨some ⟨true,⟨[1],[3]⟩,2,[⟨[0,1],[2,4]⟩]⟩,
      [⟨some "x",.integer,0,4⟩,⟨none,.continuous,0,4⟩],[⟨⟨[1,0],[1,5]⟩,0,7⟩]⟩
    ∃ f, m.flatten = .ok f ∧ exactValue 0 = 0 ∧ f.SameParts m ∧ f.SameObjective m ∧
      f.names = some ["x","c1"] ∧ ∀ x, f.value exactValue x = m.value exactValue x := by
  intro m
  have hflat : m.flatten = .ok _ := rfl
  obtain ⟨hparts,hobjective,hvalue⟩ := flatten_represents hflat
  exact ⟨_,hflat,exactValue_zero,hparts,hobjective,rfl,
    fun x => ((hvalue ℚ exactValue exactValue_zero).2 x).1⟩

end SolverSession
