import SolverSession.Proofs.Flattening

/-!
# Models in two parts

Rows that are added to a loaded model are checked and laid out as if they had been in it from the
start: stacking lines in two parts and joining the matrices is stacking them at once. Flat models
and batches inherit this from their matrices.
-/
namespace SolverSession

variable {α : Type}

/-! ## Joined matrices -/

theorem runningTotals_shift (n total : Nat) (counts : List Nat) :
    runningTotals (n+total) counts = (runningTotals total counts).map (n+·) := by
  induction counts generalizing total with
  | nil => rfl
  | cons k rest ih => rw [runningTotals, runningTotals, List.map_cons, Nat.add_assoc, ih]

theorem runningTotals_append (total : Nat) (counts more : List Nat) :
    runningTotals total (counts ++ more) =
      runningTotals total counts ++ (runningTotals (total+counts.sum) more).tail := by
  induction counts generalizing total with
  | nil => cases more <;> rfl
  | cons n rest ih =>
    rw [List.cons_append, runningTotals, ih, List.sum_cons, ← Nat.add_assoc]
    rfl

namespace StackedMatrix

/-- The lines of `m` and behind them those of `added`, whose offsets go on where `m` ends. -/
def join (m added : StackedMatrix α) : StackedMatrix α where
  format := m.format
  offsets := m.offsets ++ added.offsets.tail.map (m.numNonzeros+·)
  indices := m.indices ++ added.indices
  values := m.values ++ added.values

theorem numNonzeros_concat (format : Orientation) {lines : List (SparseVec α)}
    (hparallel : ∀ line ∈ lines, line.indices.length = line.values.length) :
    (concat format lines).numNonzeros = (lines.map (·.indices.length)).sum := by
  rw [numNonzeros, concat, List.length_flatMap]
  exact congrArg List.sum (List.map_congr_left fun line hline => (hparallel line hline).symm)

theorem concat_append (format : Orientation) {lines : List (SparseVec α)}
    (hparallel : ∀ line ∈ lines, line.indices.length = line.values.length)
    (more : List (SparseVec α)) :
    concat format (lines ++ more) = (concat format lines).join (concat format more) := by
  have hoffsets : (concat format (lines ++ more)).offsets = (concat format lines).offsets ++
      (concat format more).offsets.tail.map ((concat format lines).numNonzeros+·) := by
    rw [numNonzeros_concat format hparallel]
    simp only [concat, List.map_append]
    -- The totals of the further lines go on where those of the first end.
    rw [runningTotals_append, Nat.zero_add, List.map_tail, ← runningTotals_shift, Nat.add_zero]
  simp only [join, ← hoffsets]
  simp [concat]

/-- Lines in two parts are accepted if both parts are, whatever they are called. -/
theorem stack_append_eq_ok_iff {format : Orientation} {lines more : List (SparseVec α)}
    {bound : Nat} {what : String} (first second : String) {m : StackedMatrix α} :
    stack format (lines ++ more) bound what = .ok m ↔
      ∃ a b, stack format lines bound first = .ok a ∧ stack format more bound second = .ok b ∧
        m = a.join b := by
  simp only [stack_eq_ok_iff, List.forall_mem_append]
  constructor
  · rintro ⟨⟨hlines,hmore⟩,rfl⟩
    have hparallel := fun line hline => (SparseVec.fault?_eq_none_iff.mp (hlines line hline)).1
    exact ⟨_,_,⟨hlines,rfl⟩,⟨hmore,rfl⟩,concat_append format hparallel more⟩
  · rintro ⟨a,b,⟨hlines,rfl⟩,⟨hmore,rfl⟩,rfl⟩
    have hparallel := fun line hline => (SparseVec.fault?_eq_none_iff.mp (hlines line hline)).1
    exact ⟨⟨hlines,hmore⟩,(concat_append format hparallel more).symm⟩

end StackedMatrix

/-! ## Joined batches -/

def RowBatch.join (batch added : RowBatch α) : RowBatch α where
  lower := batch.lower ++ added.lower
  upper := batch.upper ++ added.upper
  matrix := batch.matrix.join added.matrix

def ColumnBatch.join (batch added : ColumnBatch α) : ColumnBatch α where
  costs := batch.costs ++ added.costs
  lower := batch.lower ++ added.lower
  upper := batch.upper ++ added.upper
  matrix := batch.matrix.join added.matrix
  integrality := batch.integrality ++ added.integrality

theorem bind_eq_ok_iff {ε β γ : Type} {x : Except ε β} {f : β → Except ε γ} {r : γ} :
    x >>= f = .ok r ↔ ∃ a, x = .ok a ∧ f a = .ok r := by
  constructor
  · exact bind_eq_ok
  · rintro ⟨a,rfl,h⟩
    exact h

theorem RowBatch.ofConstraints_append {rows added : List (Constraint α)} {numCols : Nat}
    {batch : RowBatch α} :
    ofConstraints (rows ++ added) numCols = .ok batch ↔
      ∃ a b, ofConstraints rows numCols = .ok a ∧ ofConstraints added numCols = .ok b ∧
        batch = a.join b := by
  simp only [ofConstraints, bind_eq_ok_iff, List.map_append,
    StackedMatrix.stack_append_eq_ok_iff "new constraint" "new constraint"]
  constructor
  · rintro ⟨_,⟨a,b,ha,hb,rfl⟩,⟨⟩⟩
    exact ⟨_,_,⟨a,ha,rfl⟩,⟨b,hb,rfl⟩,rfl⟩
  · rintro ⟨_,_,⟨a,ha,⟨⟩⟩,⟨b,hb,⟨⟩⟩,rfl⟩
    exact ⟨_,⟨a,b,ha,hb,rfl⟩,rfl⟩

theorem ColumnBatch.ofColumns_append {columns added : List (Column α)} {numRows : Nat}
    {batch : ColumnBatch α} :
    ofColumns (columns ++ added) numRows = .ok batch ↔
      ∃ a b, ofColumns columns numRows = .ok a ∧ ofColumns added numRows = .ok b ∧
        batch = a.join b := by
  simp only [ofColumns, bind_eq_ok_iff, List.map_append,
    StackedMatrix.stack_append_eq_ok_iff "new column" "new column"]
  constructor
  · rintro ⟨_,⟨a,b,ha,hb,rfl⟩,⟨⟩⟩
    exact ⟨_,_,⟨a,ha,rfl⟩,⟨b,hb,rfl⟩,rfl⟩
  · rintro ⟨_,_,⟨a,ha,⟨⟩⟩,⟨b,hb,⟨⟩⟩,rfl⟩
    exact ⟨_,⟨a,b,ha,hb,rfl⟩,rfl⟩

/-! ## The whole model -/

def FlatModel.join (flat : FlatModel α) (added : RowBatch α) : FlatModel α :=
  { flat with
    numRows := flat.numRows+added.size
    rowLower := flat.rowLower ++ added.lower
    rowUpper := flat.rowUpper ++ added.upper
    rows := flat.rows.join added.matrix }

namespace Model

def addRows (m : Model α) (added : List (Constraint α)) : Model α :=
  { m with constraints := m.constraints ++ added }

theorem flattenRows_addRows {m : Model α} {added : List (Constraint α)} {rows : StackedMatrix α} :
    (m.addRows added).flattenRows = .ok rows ↔
      ∃ a batch, m.flattenRows = .ok a ∧
        RowBatch.ofConstraints added m.vars.length = .ok batch ∧ rows = a.join batch.matrix := by
  simp only [flattenRows, addRows, RowBatch.ofConstraints, bind_eq_ok_iff, List.map_append,
    StackedMatrix.stack_append_eq_ok_iff "constraint" "new constraint"]
  constructor
  · rintro ⟨a,b,ha,hb,rfl⟩
    exact ⟨a,_,ha,⟨b,hb,rfl⟩,rfl⟩
  · rintro ⟨a,_,ha,⟨b,hb,⟨⟩⟩,rfl⟩
    exact ⟨a,b,ha,hb,rfl⟩

theorem toFlat_addRows (m : Model α) {added : List (Constraint α)} {batch : RowBatch α}
    (h : RowBatch.ofConstraints added m.vars.length = .ok batch) (sense : Sense) (offset : α)
    (costs : List α) (hessian : Option (StackedMatrix α)) (rows : StackedMatrix α) :
    (m.addRows added).toFlat sense offset costs hessian (rows.join batch.matrix) =
      (m.toFlat sense offset costs hessian rows).join batch := by
  obtain ⟨-,rfl⟩ := RowBatch.ofConstraints_eq_ok h
  simp [toFlat, addRows, FlatModel.join, RowBatch.size, columnNames, integrality]

variable [Zero α]

/-- Direction, offset, costs and Hessian, which the constraints have no part in. -/
def flattenObjective (m : Model α) :
    Except ModelFault (Sense × α × List α × Option (StackedMatrix α)) :=
  match m.objective with
  | none => .ok (.minimize,0,List.replicate m.vars.length 0,none)
  | some o => do
    let hessian ← o.flattenHessian m.vars.length
    let costs ← o.flattenWeights m.vars.length
    return (o.sense,o.offset,costs,hessian)

theorem flatten_eq_ok_iff {m : Model α} {flat : FlatModel α} :
    m.flatten = .ok flat ↔ ∃ sense offset costs hessian rows,
      m.flattenObjective = .ok (sense,offset,costs,hessian) ∧ m.flattenRows = .ok rows ∧
      flat = m.toFlat sense offset costs hessian rows := by
  unfold flatten flattenObjective
  cases m.objective with
  | none =>
    simp only [bind_eq_ok_iff]
    constructor
    · rintro ⟨rows,hrows,⟨⟩⟩
      exact ⟨_,_,_,_,rows,rfl,hrows,rfl⟩
    · rintro ⟨_,_,_,_,rows,⟨⟩,hrows,rfl⟩
      exact ⟨rows,hrows,rfl⟩
  | some o =>
    simp only [bind_eq_ok_iff]
    constructor
    · rintro ⟨hessian,hhessian,costs,hcosts,rows,hrows,⟨⟩⟩
      exact ⟨_,_,_,_,rows,⟨hessian,hhessian,costs,hcosts,rfl⟩,hrows,rfl⟩
    · rintro ⟨_,_,_,_,rows,⟨hessian,hhessian,costs,hcosts,⟨⟩⟩,hrows,rfl⟩
      exact ⟨_,hhessian,_,hcosts,rows,hrows,rfl⟩

theorem flatten_addRows {m : Model α} {added : List (Constraint α)} {flat : FlatModel α} :
    (m.addRows added).flatten = .ok flat ↔
      ∃ first batch, m.flatten = .ok first ∧
        RowBatch.ofConstraints added m.vars.length = .ok batch ∧ flat = first.join batch := by
  have hobjective : (m.addRows added).flattenObjective = m.flattenObjective := rfl
  simp only [flatten_eq_ok_iff, flattenRows_addRows, hobjective]
  constructor
  · rintro ⟨sense,offset,costs,hessian,_,hhead,⟨rows,batch,hrows,hbatch,rfl⟩,rfl⟩
    exact ⟨_,batch,⟨sense,offset,costs,hessian,rows,hhead,hrows,rfl⟩,hbatch,
      m.toFlat_addRows hbatch ..⟩
  · rintro ⟨_,batch,⟨sense,offset,costs,hessian,rows,hhead,hrows,rfl⟩,hbatch,rfl⟩
    exact ⟨sense,offset,costs,hessian,_,hhead,⟨rows,batch,hrows,hbatch,rfl⟩,
      (m.toFlat_addRows hbatch ..).symm⟩

end Model

/-- A model is flattened if its first constraints with all the rest of it are, and its last
constraints make a batch; the flat model is then the one of the first part with the batch joined to
it, which adds to the rows and to their number and leaves everything else as it was. Batches of rows
and of columns are made in parts just so. -/
theorem flattening_in_parts [Zero α] :
    (∀ (m : Model α) (added : List (Constraint α)) (flat : FlatModel α),
      (m.addRows added).flatten = .ok flat ↔
        ∃ first batch, m.flatten = .ok first ∧
          RowBatch.ofConstraints added m.vars.length = .ok batch ∧ flat = first.join batch) ∧
    (∀ (rows added : List (Constraint α)) (numCols : Nat) (batch : RowBatch α),
      RowBatch.ofConstraints (rows ++ added) numCols = .ok batch ↔
        ∃ a b, RowBatch.ofConstraints rows numCols = .ok a ∧
          RowBatch.ofConstraints added numCols = .ok b ∧ batch = a.join b) ∧
    ∀ (columns added : List (Column α)) (numRows : Nat) (batch : ColumnBatch α),
      ColumnBatch.ofColumns (columns ++ added) numRows = .ok batch ↔
        ∃ a b, ColumnBatch.ofColumns columns numRows = .ok a ∧
          ColumnBatch.ofColumns added numRows = .ok b ∧ batch = a.join b :=
  ⟨fun _ _ _ => Model.flatten_addRows,fun _ _ _ _ => RowBatch.ofConstraints_append,
    fun _ _ _ _ => ColumnBatch.ofColumns_append⟩

/-- The number of rows is not that of the first part. -/
theorem numRows_of_parts :
    let m : Model Float := ⟨none,[.free .continuous],[]⟩
    let added : List (Constraint Float) := [.free .empty]
    ∃ flat first batch, (m.addRows added).flatten = .ok flat ∧ m.flatten = .ok first ∧
      RowBatch.ofConstraints added m.vars.length = .ok batch ∧ flat.numRows ≠ first.numRows :=
  ⟨_,_,_,rfl,rfl,rfl,by decide⟩

end SolverSession
