import SolverSession.Proofs.CachedSolution
import SolverSession.Proofs.SplitModels

/-!
# Adding in parts

Rows that are added to a session in two parts leave it as if they had come at once, and so do
columns. After the first part the session reads status and solution again, which the second part
makes obsolete: what is cached in the end depends on what the engine then holds, and a solution that
the engine gave up with the first part does not come back with the second.
-/
namespace SolverSession

/-! ## Batches -/

theorem exists_joined_iff {ε β : Type} {join : β → β → β} {x y whole : Except ε β}
    (h : ∀ c, whole = .ok c ↔ ∃ a b, x = .ok a ∧ y = .ok b ∧ c = join a b) :
    (∃ c, whole = .ok c) ↔ (∃ a, x = .ok a) ∧ ∃ b, y = .ok b := by
  simp only [h]
  constructor
  · rintro ⟨_,a,b,ha,hb,-⟩
    exact ⟨⟨a,ha⟩,b,hb⟩
  · rintro ⟨⟨a,ha⟩,b,hb⟩
    exact ⟨_,a,b,ha,hb,rfl⟩

theorem RowBatch.exists_ofConstraints_append {rows added : List (Constraint Float)}
    {numCols : Nat} : (∃ batch, ofConstraints (rows ++ added) numCols = .ok batch) ↔
      (∃ batch, ofConstraints rows numCols = .ok batch) ∧
        ∃ batch, ofConstraints added numCols = .ok batch :=
  exists_joined_iff fun _ => ofConstraints_append

theorem ColumnBatch.exists_ofColumns_append {columns added : List (Column Float)}
    {numRows : Nat} : (∃ batch, ofColumns (columns ++ added) numRows = .ok batch) ↔
      (∃ batch, ofColumns columns numRows = .ok batch) ∧
        ∃ batch, ofColumns added numRows = .ok batch :=
  exists_joined_iff fun _ => ofColumns_append

/-! ## The engine -/

namespace Scripted

def keeps (e : Scripted) : Bool := e.keepSolution && e.solution.valueValid

/-- The engine with further rows. A solution it keeps has an activity for each of them. -/
def withRows (e : Scripted) (rows : List (Constraint Float)) : Scripted :=
  if e.keeps then
    { e with
      numRows := e.numRows+rows.length
      solution := e.extend (rows.map e.activity) }
  else { e with numRows := e.numRows+rows.length }.forget

def withCols (e : Scripted) (columns : List (Column Float)) : Scripted :=
  { e with numCols := e.numCols+columns.length }.forget

variable {e : Scripted}

theorem withRows_of_keeps (h : e.keeps = true) (rows : List (Constraint Float)) :
    e.withRows rows = { e with
      numRows := e.numRows+rows.length
      solution := e.extend (rows.map e.activity) } := if_pos h

theorem withRows_of_drops (h : e.keeps = false) (rows : List (Constraint Float)) :
    e.withRows rows = { e with numRows := e.numRows+rows.length }.forget :=
  if_neg (by simp [h])

theorem addRows_eq {rows : List (Constraint Float)} {numCols : Nat}
    {batch : RowBatch Float} (hbatch : RowBatch.ofConstraints rows numCols = .ok batch)
    (hrejected : e.rejected ≠ some .addRows)
    (hcovers : e.solution.valueValid = true → numCols ≤ e.solution.colValue.length) :
    e.addRows batch = .ok (e.withRows rows) := by
  have hsize := RowBatch.size_ofConstraints hbatch
  have hbranch : (e.keepSolution && e.solution.valueValid) = e.keeps := rfl
  rw [addRows, checked, if_neg hrejected]
  dsimp only
  rw [hbranch]
  cases hkeeps : e.keeps with
  | true =>
    have hvalid : e.solution.valueValid = true := (Bool.and_eq_true_iff.mp hkeeps).2
    have hall : (rows.map e.activity).length = batch.matrix.lines.length := by
      rw [RowBatch.lines_ofConstraints hbatch, List.length_map, List.length_map]
    rw [if_pos rfl, activities_eq hbatch (hcovers hvalid), if_pos hall, hsize,
      withRows_of_keeps hkeeps]
    rfl
  | false =>
    rw [if_neg Bool.false_ne_true, hsize, withRows_of_drops hkeeps]

theorem addCols_eq {columns : List (Column Float)} {numRows : Nat}
    {batch : ColumnBatch Float} (hbatch : ColumnBatch.ofColumns columns numRows = .ok batch)
    (hrejected : e.rejected ≠ some .addCols) :
    e.addCols batch = .ok (e.withCols columns) := by
  rw [addCols, checked, if_neg hrejected, ColumnBatch.size_ofColumns hbatch]
  rfl

theorem keeps_withRows (e : Scripted) (rows : List (Constraint Float)) :
    (e.withRows rows).keeps = e.keeps := by
  cases h : e.keeps with
  | true =>
    rw [withRows_of_keeps h]
    exact h
  | false =>
    rw [withRows_of_drops h]
    exact Bool.and_false _

theorem withRows_withRows (e : Scripted) (a b : List (Constraint Float)) :
    (e.withRows a).withRows b = e.withRows (a ++ b) := by
  cases h : e.keeps with
  | true =>
    have hnext := (e.keeps_withRows a).trans h
    rw [withRows_of_keeps hnext, withRows_of_keeps h, withRows_of_keeps h]
    -- The columns keep their values, so the activities of the second part are what they were.
    simp [extend, activity, Nat.add_assoc, List.replicate_append_replicate]
  | false =>
    have hnext := (e.keeps_withRows a).trans h
    rw [withRows_of_drops hnext, withRows_of_drops h, withRows_of_drops h]
    simp [forget, Nat.add_assoc]

theorem withCols_withCols (e : Scripted) (a b : List (Column Float)) :
    (e.withCols a).withCols b = e.withCols (a ++ b) := by
  simp [withCols, forget, Nat.add_assoc]

theorem withRows_rejected (e : Scripted) (rows : List (Constraint Float)) :
    (e.withRows rows).rejected = e.rejected := by
  unfold withRows
  split <;> rfl

theorem withRows_colValue {rows : List (Constraint Float)}
    (h : (e.withRows rows).solution.valueValid = true) :
    e.solution.valueValid = true ∧ (e.withRows rows).solution.colValue = e.solution.colValue := by
  cases hkeeps : e.keeps with
  | true =>
    rw [withRows_of_keeps hkeeps]
    exact ⟨(Bool.and_eq_true_iff.mp hkeeps).2,rfl⟩
  | false =>
    rw [withRows_of_drops hkeeps] at h
    cases h

end Scripted

/-! ## The session -/

namespace Answer

variable {σ : Type}

/-- What is added is taken if it fits; else it is called invalid, and the call has no trace. -/
structure Adds (s : Session σ) (fits : Prop) (grown : Session σ) (a : Answer σ Unit) : Prop where
  taken : fits → a.outcome = .ok () ∧ a.session = grown
  refused : ¬fits → (∃ fault, a.outcome = .failed (.invalidModel fault)) ∧ a.Untouched s

/-- One call succeeds just where two in its place do, and all of them end in one session. If it is
refused it has no trace. -/
structure InParts (s : Session σ) (whole first second : Answer σ Unit) : Prop where
  succeeds : whole.outcome = .ok () ↔ first.outcome = .ok () ∧ second.outcome = .ok ()
  session : whole.outcome = .ok () → second.session = whole.session
  refused : whole.outcome ≠ .ok () →
    (∃ fault, whole.outcome = .failed (.invalidModel fault)) ∧ whole.Untouched s

variable {s t u : Session σ} {p q : Prop} {whole first second : Answer σ Unit}

theorem Adds.outcome_eq_ok_iff {a : Answer σ Unit} (h : a.Adds s p t) : a.outcome = .ok () ↔ p := by
  constructor
  · intro hok
    by_contra hp
    obtain ⟨⟨fault,hfailed⟩,-⟩ := h.refused hp
    rw [hok] at hfailed
    cases hfailed
  · exact fun hp => (h.taken hp).1

/-- The second call matters only where the first has been taken. -/
theorem Adds.inParts (hwhole : whole.Adds s (p ∧ q) u) (hfirst : first.Adds s p t)
    (hsecond : p → second.Adds t q u) : InParts s whole first second where
  succeeds := by
    rw [hwhole.outcome_eq_ok_iff, hfirst.outcome_eq_ok_iff]
    exact and_congr_right fun hp => (hsecond hp).outcome_eq_ok_iff.symm
  session := by
    intro hok
    obtain ⟨hp,hq⟩ := hwhole.outcome_eq_ok_iff.mp hok
    rw [((hsecond hp).taken hq).2, (hwhole.taken ⟨hp,hq⟩).2]
  refused := fun hfailed => hwhole.refused fun h => hfailed (hwhole.taken h).1

end Answer

namespace Session

section Grown

variable {σ : Type} [Engine σ]

def holdsPoint (engine : σ) : Bool :=
  (Engine.solution engine).valueValid || (Engine.solution engine).dualValid

/-- What is remembered after the engine has grown to these dimensions. -/
def grown (s : Session σ) (engine : σ) (numCols numRows : Nat) : Session σ :=
  { s with engine := engine, numCols := numCols, numRows := numRows }.refresh.1

variable (s : Session σ) (engine : σ) (numCols numRows : Nat)

@[simp] theorem grown_engine : (s.grown engine numCols numRows).engine = engine :=
  refresh_engine _

@[simp] theorem grown_numCols : (s.grown engine numCols numRows).numCols = numCols :=
  (refresh_dims _).1

@[simp] theorem grown_numRows : (s.grown engine numCols numRows).numRows = numRows :=
  (refresh_dims _).2

theorem grown_eq : s.grown engine numCols numRows =
    ⟨engine,.ofCode (Engine.modelStatus engine),numCols,numRows,
      if holdsPoint engine then s.cached.map fun _ => .ofEngine (Engine.solution engine)
      else none⟩ := by
  unfold grown refresh holdsPoint
  cases s.cached with
  | none => simp
  | some old =>
    dsimp only
    split <;> rfl

/-- Growing twice is growing once, if the second engine holds a point just where the first does. -/
theorem grown_grown {s : Session σ} {e f : σ} (h : holdsPoint f = holdsPoint e)
    (c r c' r' : Nat) : (s.grown e c r).grown f c' r' = s.grown f c' r' := by
  rw [grown_eq, grown_eq, grown_eq, h]
  cases holdsPoint e <;> simp [Function.comp_def]

end Grown

def withRows (s : Session Scripted) (rows : List (Constraint Float)) : Session Scripted :=
  if rows.isEmpty then s
  else s.grown (s.engine.withRows rows) s.numCols (s.numRows+rows.length)

def withCols (s : Session Scripted) (columns : List (Column Float)) : Session Scripted :=
  if columns.isEmpty then s
  else s.grown (s.engine.withCols columns) (s.numCols+columns.length) s.numRows

variable {s : Session Scripted}

theorem withRows_cons (s : Session Scripted) (row : Constraint Float)
    (rows : List (Constraint Float)) : s.withRows (row :: rows) =
      s.grown (s.engine.withRows (row :: rows)) s.numCols (s.numRows+(row :: rows).length) := rfl

theorem withCols_cons (s : Session Scripted) (column : Column Float)
    (columns : List (Column Float)) : s.withCols (column :: columns) =
      s.grown (s.engine.withCols (column :: columns)) (s.numCols+(column :: columns).length)
        s.numRows := rfl

theorem holdsPoint_withRows (e : Scripted) (rows : List (Constraint Float)) :
    holdsPoint (e.withRows rows) = e.keeps := by
  cases h : e.keeps with
  | true =>
    have hvalid : e.solution.valueValid = true := (Bool.and_eq_true_iff.mp h).2
    rw [Scripted.withRows_of_keeps h]
    simp [holdsPoint, Engine.solution, Scripted.extend, hvalid]
  | false =>
    rw [Scripted.withRows_of_drops h]
    rfl

theorem withRows_append (s : Session Scripted) (a b : List (Constraint Float)) :
    s.withRows (a ++ b) = (s.withRows a).withRows b := by
  cases a with
  | nil => rfl
  | cons row rows =>
    cases b with
    | nil => rw [List.append_nil]; rfl
    | cons row' rows' =>
      have hpoint : holdsPoint (s.engine.withRows (row :: rows ++ row' :: rows')) =
          holdsPoint (s.engine.withRows (row :: rows)) := by
        rw [holdsPoint_withRows, holdsPoint_withRows]
      simp only [List.cons_append, withRows_cons, grown_engine, grown_numCols, grown_numRows,
        Scripted.withRows_withRows]
      rw [← List.cons_append, grown_grown hpoint, List.length_append, Nat.add_assoc]

theorem withCols_append (s : Session Scripted) (a b : List (Column Float)) :
    s.withCols (a ++ b) = (s.withCols a).withCols b := by
  cases a with
  | nil => rfl
  | cons column columns =>
    cases b with
    | nil => rw [List.append_nil]; rfl
    | cons column' columns' =>
      have hpoint : holdsPoint (s.engine.withCols (column :: columns ++ column' :: columns')) =
          holdsPoint (s.engine.withCols (column :: columns)) := rfl
      simp only [List.cons_append, withCols_cons, grown_engine, grown_numCols, grown_numRows,
        Scripted.withCols_withCols]
      rw [← List.cons_append, grown_grown hpoint, List.length_append, Nat.add_assoc]

theorem withRows_numCols (s : Session Scripted) (rows : List (Constraint Float)) :
    (s.withRows rows).numCols = s.numCols := by
  cases rows with
  | nil => rfl
  | cons row rows => exact grown_numCols ..

theorem withCols_numRows (s : Session Scripted) (columns : List (Column Float)) :
    (s.withCols columns).numRows = s.numRows := by
  cases columns with
  | nil => rfl
  | cons column columns => exact grown_numRows ..

theorem withCols_rejected (s : Session Scripted) (columns : List (Column Float)) :
    (s.withCols columns).engine.rejected = s.engine.rejected := by
  cases columns with
  | nil => rfl
  | cons column columns =>
    rw [withCols_cons, grown_engine]
    rfl

/-- Rows are not about to be rejected, and the point that is held has a value for every column. -/
structure TakesRows (s : Session Scripted) : Prop where
  accepts : s.engine.rejected ≠ some .addRows
  covers : s.engine.solution.valueValid = true → s.numCols ≤ s.engine.solution.colValue.length

theorem TakesRows.withRows (h : s.TakesRows) (rows : List (Constraint Float)) :
    (s.withRows rows).TakesRows := by
  cases rows with
  | nil => exact h
  | cons row rows =>
    rw [withRows_cons]
    constructor
    · rw [grown_engine, Scripted.withRows_rejected]
      exact h.accepts
    · rw [grown_engine, grown_numCols]
      intro hvalid
      obtain ⟨hvalid,hvalues⟩ := Scripted.withRows_colValue hvalid
      rw [hvalues]
      exact h.covers hvalid

theorem addConstraints_adds (h : s.TakesRows) (rows : List (Constraint Float)) :
    (s.addConstraints rows).Adds s (∃ batch, RowBatch.ofConstraints rows s.numCols = .ok batch)
      (s.withRows rows) := by
  unfold addConstraints
  cases hbatch : RowBatch.ofConstraints rows s.numCols with
  | error fault =>
    refine ⟨?_,fun _ => ⟨⟨fault,rfl⟩,fail_untouched s _⟩⟩
    rintro ⟨batch,hok⟩
    cases hok
  | ok batch =>
    refine ⟨fun _ => ?_,fun hnone => absurd ⟨batch,rfl⟩ hnone⟩
    have hsize := RowBatch.size_ofConstraints hbatch
    dsimp only
    rw [hsize]
    cases rows with
    | nil => exact ⟨rfl,rfl⟩
    | cons row rows =>
      have hreply : Engine.addRows batch s.engine = .ok (s.engine.withRows (row :: rows)) :=
        Scripted.addRows_eq hbatch h.accepts h.covers
      rw [hreply, if_neg (by simp), calling_ok rfl]
      exact ⟨rfl,rfl⟩

theorem addVariables_adds (h : s.engine.rejected ≠ some .addCols) (columns : List (Column Float)) :
    (s.addVariables columns).Adds s
      (∃ batch, ColumnBatch.ofColumns columns s.numRows = .ok batch) (s.withCols columns) := by
  unfold addVariables
  cases hbatch : ColumnBatch.ofColumns columns s.numRows with
  | error fault =>
    refine ⟨?_,fun _ => ⟨⟨fault,rfl⟩,fail_untouched s _⟩⟩
    rintro ⟨batch,hok⟩
    cases hok
  | ok batch =>
    refine ⟨fun _ => ?_,fun hnone => absurd ⟨batch,rfl⟩ hnone⟩
    have hsize := ColumnBatch.size_ofColumns hbatch
    dsimp only
    rw [hsize]
    cases columns with
    | nil => exact ⟨rfl,rfl⟩
    | cons column columns =>
      have hreply : Engine.addCols batch s.engine = .ok (s.engine.withCols (column :: columns)) :=
        Scripted.addCols_eq hbatch h
      rw [hreply, if_neg (by simp), calling_ok rfl]
      exact ⟨rfl,rfl⟩

theorem addConstraints_inParts (h : s.TakesRows) (a b : List (Constraint Float)) :
    Answer.InParts s (s.addConstraints (a ++ b)) (s.addConstraints a)
      ((s.addConstraints a).session.addConstraints b) := by
  have hwhole := addConstraints_adds h (a ++ b)
  have hfirst := addConstraints_adds h a
  have hsecond := addConstraints_adds (h.withRows a) b
  rw [RowBatch.exists_ofConstraints_append, withRows_append] at hwhole
  rw [withRows_numCols] at hsecond
  exact hwhole.inParts hfirst fun hfits => (hfirst.taken hfits).2 ▸ hsecond

theorem addVariables_inParts (h : s.engine.rejected ≠ some .addCols) (a b : List (Column Float)) :
    Answer.InParts s (s.addVariables (a ++ b)) (s.addVariables a)
      ((s.addVariables a).session.addVariables b) := by
  have hwhole := addVariables_adds h (a ++ b)
  have hfirst := addVariables_adds h a
  have hsecond := addVariables_adds (s := s.withCols a) (by rwa [withCols_rejected]) b
  rw [ColumnBatch.exists_ofColumns_append, withCols_append] at hwhole
  rw [withCols_numRows] at hsecond
  exact hwhole.inParts hfirst fun hfits => (hfirst.taken hfits).2 ▸ hsecond

end Session

/-- In every run whose scripted solutions cover the model when they are reported: unless the engine is
about to reject them, rows can be added at once just where they can be added in two parts, and
session and engine then end up the same. Rows that are refused leave both as they were. All this
holds of columns too. -/
theorem adding_in_parts {first s : Session Scripted} {records : List CallRecord}
    (hfirst : first.Opened) (hrun : Run Session.ScriptCovers first records s) :
    (s.engine.rejected ≠ some .addRows → ∀ a b : List (Constraint Float),
      Answer.InParts s (s.addConstraints (a ++ b)) (s.addConstraints a)
        ((s.addConstraints a).session.addConstraints b)) ∧
    (s.engine.rejected ≠ some .addCols → ∀ a b : List (Column Float),
      Answer.InParts s (s.addVariables (a ++ b)) (s.addVariables a)
        ((s.addVariables a).session.addVariables b)) := by
  have hsound := Session.sound_of_run hfirst hrun
  refine ⟨fun hrows => Session.addConstraints_inParts ⟨hrows,fun hvalid => ?_⟩,
    Session.addVariables_inParts⟩
  exact Nat.le_of_eq (hsound.engine (.inl hvalid)).colValue.symm

/-- Two rows that are added one by one to a solution that is kept, and two columns that are added one
by one and end it. -/
theorem adding_in_parts_kept_solution :
    let row : Constraint Float := .free ⟨[0],[1]⟩
    let column : Column Float := ⟨.free .integer,3,.empty⟩
    ∃ records s, Run Session.ScriptCovers (Session.create Scripted.fresh .quiet).session records s ∧
      s.solution.isValueValid = true ∧
      (∃ long, (s.addConstraints [row,row]).session = long ∧
        ((s.addConstraints [row]).session.addConstraints [row]).session = long ∧
        long.numRows = 3 ∧ long.solution.isValueValid = true) ∧
      ∃ wide, (s.addVariables [column,column]).session = wide ∧
        ((s.addVariables [column]).session.addVariables [column]).session = wide ∧
        wide.numCols = 3 ∧ wide.cached = none := by
  intro row column
  have hopen : (Session.create Scripted.fresh .quiet).session.Opened :=
    @Session.Opened.create [] .quiet rfl
  have hload : Run Session.ScriptCovers (Session.create Scripted.fresh .quiet).session _ _ :=
    .call (.long (.load ⟨none,[.free .continuous],[.free .empty]⟩)) (fun _ _ _ h => nomatch h)
      .start
  have hsolve := ((hload.adjust (.keepSolution true)).adjust
    (.script 7 ⟨true,false,[2],[0],[3],[0]⟩)).call (.long (.solve ⟨false⟩))
    (fun _ _ _ _ _ h => by cases h; exact ⟨rfl,rfl,rfl,rfl⟩)
  obtain ⟨hrows,hcols⟩ := adding_in_parts hopen hsolve
  have hlong := (hrows (by decide) [row] [row]).session rfl
  have hwide := (hcols (by decide) [column] [column]).session rfl
  exact ⟨_,_,hsolve,rfl,⟨_,rfl,hlong,rfl,rfl⟩,_,rfl,hwide,rfl,rfl⟩

end SolverSession
