import Mathlib.Tactic.ByContra
import SolverSession.Engine.Scripted
import SolverSession.Proofs.StackedMatrix

/-!
# The scripted engine

Settings change what its next calls do, and nothing it reports. A call is either rejected or goes
on; only adding rows can be cut short, and only where the solution that is to be kept is shorter
than the rows are wide.
-/
namespace SolverSession

namespace Scripted

/-- What is done to the engine, or to the files, between the calls of a session. -/
inductive Setting where
  | script (code : Int32) (solution : DenseSolution)
  | reject (method : Method)
  | rejectOption (name : String)
  | keepSolution (on : Bool)
  | disk (disk : Disk)

def adjust (e : Scripted) : Setting → Scripted
  | .script code solution => { e with next := some (code,solution) }
  | .reject method => { e with rejected := some method }
  | .rejectOption name => { e with rejectedOption := some name }
  | .keepSolution on => { e with keepSolution := on }
  | .disk disk => { e with disk := disk }

/-- Both engines report the same to a session. -/
structure SameReports (e f : Scripted) : Prop where
  numCols : f.numCols = e.numCols
  numRows : f.numRows = e.numRows
  statusCode : f.statusCode = e.statusCode
  info : f.info = e.info
  solution : f.solution = e.solution

theorem sameReports_refl (e : Scripted) : SameReports e e := ⟨rfl,rfl,rfl,rfl,rfl⟩

theorem SameReports.trans {e f g : Scripted} (hef : SameReports e f) (hfg : SameReports f g) :
    SameReports e g :=
  ⟨hfg.numCols.trans hef.numCols,hfg.numRows.trans hef.numRows,
    hfg.statusCode.trans hef.statusCode,hfg.info.trans hef.info,hfg.solution.trans hef.solution⟩

theorem sameReports_adjust (e : Scripted) (x : Setting) : SameReports e (e.adjust x) := by
  cases x <;> exact ⟨rfl,rfl,rfl,rfl,rfl⟩

theorem sameReports_adjustAll (e : Scripted) (xs : List Setting) :
    SameReports e (xs.foldl adjust e) := by
  induction xs generalizing e with
  | nil => exact sameReports_refl e
  | cons x xs ih =>
    exact (sameReports_adjust e x).trans (ih (e.adjust x))

/-- The engine has nothing to report but its dimensions. -/
structure Blank (e : Scripted) : Prop where
  statusCode : e.statusCode = 0
  info : e.info = .none
  solution : e.solution = .none

theorem forget_blank (e : Scripted) : e.forget.Blank := ⟨rfl,rfl,rfl⟩

/-- Rows were added: the solution is gone, or it is kept and has an activity for each of them. -/
structure RowsAdded (e f : Scripted) (count : Nat) : Prop where
  numCols : f.numCols = e.numCols
  numRows : f.numRows = e.numRows+count
  solution : f.Blank ∨ (e.solution.valueValid = true ∧ f.statusCode = e.statusCode ∧
    f.info = e.info ∧ ∃ activities, activities.length = count ∧ f.solution = e.extend activities)

theorem checked_cases {e : Scripted} {method : Method} {fails : Scripted → Scripted}
    {goesOn : Scripted → Reply Scripted} {P : Reply Scripted → Prop}
    (hrejected : e.rejected = some method →
      P (.failed "scripted rejection" (fails { e with rejected := none })))
    (hgoesOn : e.rejected ≠ some method → P (goesOn e)) :
    P (e.checked method fails goesOn) := by
  unfold checked
  split
  · exact hrejected ‹_›
  · exact hgoesOn ‹_›

theorem checked_not_crashed {e : Scripted} {method : Method} {fails : Scripted → Scripted}
    {goesOn : Scripted → Reply Scripted} (h : (goesOn e).outcome ≠ .crashed) :
    (e.checked method fails goesOn).outcome ≠ .crashed :=
  checked_cases (P := fun r => r.outcome ≠ .crashed) (fun _ => by simp [Reply.failed]) fun _ => h

theorem writeText_not_crashed (e : Scripted) (path text : String) :
    (e.writeText path text).outcome ≠ .crashed := by
  unfold writeText
  split <;> simp [Reply.ok, Reply.failed]

theorem setOption_not_crashed (e : Scripted) (name : String) (value : OptionValue) :
    (e.setOption name value).outcome ≠ .crashed := by
  refine checked_not_crashed ?_
  split <;> simp [Reply.ok, Reply.failed]

theorem exists_activity?_eq_some {values : List Float} {row : SparseVec Float}
    (h : ∀ i ∈ row.indices, i < values.length) : ∃ x, activity? values row = some x := by
  have hentries : ∀ entry ∈ row.entries, entry.1 < values.length :=
    fun entry hentry => h _ (List.of_mem_zip hentry).1
  unfold activity?
  generalize row.entries = entries at hentries
  generalize (0 : Float) = sum
  induction entries generalizing sum with
  | nil => exact ⟨sum,rfl⟩
  | cons entry rest ih =>
    obtain ⟨hentry,hrest⟩ := List.forall_mem_cons.mp hentries
    obtain ⟨x,hx⟩ := ih hrest (sum+values[entry.1]*entry.2)
    exact ⟨x,by simpa [List.foldlM_cons, List.getElem?_eq_getElem hentry] using hx⟩

/-- The activity of a row at the point the engine holds. -/
def activity (e : Scripted) (row : Constraint Float) : Float :=
  (activity? e.solution.colValue row.weights).getD 0

theorem activities_eq {e : Scripted} {rows : List (Constraint Float)} {numCols : Nat}
    {batch : RowBatch Float} (hbatch : RowBatch.ofConstraints rows numCols = .ok batch)
    (hlong : numCols ≤ e.solution.colValue.length) :
    activities e.solution.colValue batch.matrix.lines = rows.map e.activity := by
  obtain ⟨hrows,-⟩ := RowBatch.ofConstraints_eq_ok hbatch
  rw [RowBatch.lines_ofConstraints hbatch]
  clear hbatch
  induction rows with
  | nil => rfl
  | cons row rows ih =>
    obtain ⟨hrow,hrest⟩ := List.forall_mem_cons.mp hrows
    have hbelow := (SparseVec.fault?_eq_none_iff.mp hrow).2.1
    obtain ⟨x,hx⟩ := exists_activity?_eq_some fun i hi => Nat.lt_of_lt_of_le (hbelow i hi) hlong
    rw [List.map_cons, List.map_cons, activities, activity, hx, ih hrest]
    rfl

/-- Rows that fit `numCols` are refused or added, unless the solution to be kept is too short. -/
theorem addRows_cases {e : Scripted} {rows : List (Constraint Float)} {numCols : Nat}
    {batch : RowBatch Float} (hbatch : RowBatch.ofConstraints rows numCols = .ok batch) :
    (e.addRows batch = .failed "scripted rejection" { e with rejected := none }) ∨
    (∃ f, e.addRows batch = .ok f ∧ e.RowsAdded f rows.length) ∨
    ((e.addRows batch).outcome = .crashed ∧ e.solution.valueValid = true ∧
      e.solution.colValue.length < numCols) := by
  have hsize := RowBatch.size_ofConstraints hbatch
  refine checked_cases (P := fun r => r = .failed "scripted rejection" { e with rejected := none } ∨
    (∃ f, r = .ok f ∧ e.RowsAdded f rows.length) ∨ (r.outcome = .crashed ∧
      e.solution.valueValid = true ∧ e.solution.colValue.length < numCols))
    (fun _ => .inl rfl) (fun _ => .inr ?_)
  dsimp only
  split
  case isTrue hkeep =>
    have hvalid : e.solution.valueValid = true := (Bool.and_eq_true_iff.mp hkeep).2
    have hlines : batch.matrix.lines.length = rows.length := by
      rw [RowBatch.lines_ofConstraints hbatch, List.length_map]
    split
    case isTrue hall =>
      exact .inl ⟨_,rfl,rfl,congrArg (e.numRows+·) hsize,
        .inr ⟨hvalid,rfl,rfl,_,hall.trans hlines,rfl⟩⟩
    case isFalse hsome =>
      refine .inr ⟨rfl,hvalid,?_⟩
      by_contra hlong
      have hall := activities_eq hbatch (Nat.le_of_not_lt hlong)
      exact hsome (by rw [hall, List.length_map, hlines])
  case isFalse =>
    exact .inl ⟨_,rfl,rfl,congrArg (e.numRows+·) hsize,.inl (forget_blank _)⟩

end Scripted

end SolverSession
