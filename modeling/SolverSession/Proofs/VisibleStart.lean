import SolverSession.Proofs.Doubles
import SolverSession.Proofs.Runs
import SolverSession.Proofs.SparseVec

/-!
# Starting points stay visible

A list of an accepted start can be read off the solution until an effect replaces it. Each of the
four lists is followed by itself: starts that supply other lists, calls that fail before the engine
has changed anything, and calls about options and files leave it alone.
-/
namespace SolverSession

namespace Solution

/-- The values a field of a start stands for, if the solution has them. -/
def get? (x : Solution) : StartField → Option (SparseVec Float)
  | .primalCols => some x.primal.vars
  | .primalRows => some x.primal.constraints
  | .dualCols => x.dual.map (·.vars)
  | .dualRows => x.dual.map (·.constraints)

def isValid (x : Solution) : StartField → Bool
  | .primalCols | .primalRows => x.isValueValid
  | .dualCols | .dualRows => x.isDualValid

/-- The solution has these values for the field, compressed, and calls them valid. -/
structure Holds (x : Solution) (field : StartField) (values : List Float) : Prop where
  row : x.get? field = some (.ofDense values)
  valid : x.isValid field = true

variable {x : Solution} {start : WarmStart} {field : StartField} {values : List Float}

theorem applyStart_dual {dual : PointValues} (h : x.dual = some dual) :
    (x.applyStart start).dual = some (dual.overwrite start.dualCols start.dualRows) := by
  by_cases hs : start.suppliesDual = true
  · simp [applyStart, hs, h]
  · obtain ⟨hcols,hrows⟩ : start.dualCols = none ∧ start.dualRows = none := by
      simpa [WarmStart.suppliesDual] using hs
    simp [applyStart, hs, h, hcols, hrows, PointValues.overwrite]

theorem applyStart_holds (h : start.get field = some values) :
    (x.applyStart start).Holds field values := by
  cases field <;> simp only [WarmStart.get] at h <;> constructor <;>
    simp [get?, isValid, applyStart, PointValues.overwrite, WarmStart.suppliesPrimal,
      WarmStart.suppliesDual, h]

theorem Holds.applyStart (hx : x.Holds field values) (h : start.get field = none) :
    (x.applyStart start).Holds field values := by
  obtain ⟨hrow,hvalid⟩ := hx
  constructor
  case valid => cases field <;> simp_all [isValid, Solution.applyStart]
  case row =>
    cases field with
    | primalCols | primalRows => simp_all [get?, WarmStart.get, Solution.applyStart,
        PointValues.overwrite]
    | dualCols | dualRows =>
      obtain ⟨dual,hdual,-⟩ := Option.map_eq_some_iff.mp hrow
      simp_all [get?, WarmStart.get, applyStart_dual hdual, PointValues.overwrite]

end Solution

/-- The effect replaces what a start supplied for the field, or drops it. -/
def Effect.replaces (field : StartField) : Effect → Bool
  | .none => false
  | .start given => (given.get field).isSome
  | _ => true

namespace Session

/-- The solution has the values of a list that covers the model. -/
structure Shows (s : Session Scripted) (field : StartField) (values : List Float) : Prop where
  holds : s.solution.Holds field values
  length : values.length = field.expected s.numCols s.numRows

variable {s t : Session Scripted} {start : WarmStart} {field : StartField} {values : List Float}

theorem Shows.sameRecord (h : s.Shows field values) (hst : SameRecord s t) :
    t.Shows field values := by
  obtain ⟨-,hcols,hrows,hcached⟩ := hst
  refine ⟨?_,?_⟩
  · rw [solution, hcached]
    exact h.holds
  · rw [hcols, hrows]
    exact h.length

theorem advance_start_shows (hget : start.get field = some values)
    (h : s.Advance (.start start) t) : t.Shows field values := by
  cases h with
  | start he hstart =>
    exact ⟨Solution.applyStart_holds hget,WarmStart.fault?_eq_none_iff.mp hstart field values hget⟩

theorem advance_shows {x : Effect} (hs : s.Shows field values) (hx : x.replaces field = false)
    (h : s.Advance x t) : t.Shows field values := by
  cases h with
  | none he => exact hs.sameRecord (sameRecord_engine s _)
  | start he hstart =>
    have hget := Option.isNone_iff_eq_none.mp (Option.isSome_eq_false_iff.mp hx)
    exact ⟨hs.holds.applyStart hget,hs.length⟩
  | load | drop | rows | cols | solve | reset => cases hx

theorem perform_shows {c : SessionCall} (hs : s.Shows field values)
    (hc : (c.effect (c.perform s).outcome).replaces field = false) :
    (c.perform s).session.Shows field values := by
  by_cases hcrashed : (c.perform s).outcome = .crashed
  · obtain ⟨e,-,-,hsession⟩ := perform_crashed hcrashed
    rw [hsession]
    exact hs.sameRecord (sameRecord_engine s e)
  · exact advance_shows hs hc (perform_advance hcrashed)

end Session

theorem run_shows {allowed : Session Scripted → SessionCall → Prop} {first s : Session Scripted}
    {earlier later records : List CallRecord} {start : WarmStart} {returned : Returned}
    {field : StartField} {values : List Float} (hget : start.get field = some values)
    (hrun : Run allowed first records s)
    (hrecords : records = later ++ ⟨.short (.warmStart start),.ok returned⟩ :: earlier)
    (hlater : ∀ r ∈ later, r.effect.replaces field = false) : s.Shows field values := by
  induction hrun generalizing later with
  | start => simp at hrecords
  | @adjust records s x h ih => exact (ih hrecords hlater).sameRecord (Session.sameRecord_engine s _)
  | @call records s c hc h ih =>
    -- The last call is the start itself, or one after it that replaces nothing.
    cases later with
    | nil =>
      obtain ⟨hrecord,-⟩ := List.cons.inj hrecords
      obtain ⟨rfl,hok⟩ := CallRecord.mk.inj hrecord
      have hstart := Session.perform_advance (by rw [hok]; nofun)
      rw [hok] at hstart
      exact Session.advance_start_shows hget hstart
    | cons r later =>
      obtain ⟨rfl,hrest⟩ := List.cons.inj hrecords
      obtain ⟨hr,hlater⟩ := List.forall_mem_cons.mp hlater
      exact Session.perform_shows (ih hrest hlater) hr

/-- In every run, also one with calls that are cut short: a list of an accepted start is the part of
the solution it stands for, and that side is valid, until another accepted start supplies the list,
a solve is run, a load reaches the engine, the session is reset, or rows or columns are added. The
values come back as they were, but for the sign of a zero. -/
theorem run_start_visible {allowed : Session Scripted → SessionCall → Prop}
    {first s : Session Scripted} {earlier later : List CallRecord} {start : WarmStart}
    {returned : Returned} {field : StartField} {values : List Float}
    (hrun : Run allowed first (later ++ ⟨.short (.warmStart start),.ok returned⟩ :: earlier) s)
    (hget : start.get field = some values)
    (hlater : ∀ r ∈ later, r.effect.replaces field = false) :
    ∃ row, s.solution.get? field = some row ∧
      row.toDense (field.expected s.numCols s.numRows) = values.map plainZero ∧
      s.solution.isValid field = true := by
  obtain ⟨hholds,hlength⟩ := run_shows hget hrun rfl hlater
  refine ⟨_,hholds.row,?_,hholds.valid⟩
  rw [← hlength, SparseVec.toDense_ofDense]
  exact List.map_congr_left fun x _ => ite_beq_zero x

/-- Values of the columns outlast a start with other lists, a start that is too long, a refused
solve and an empty batch; the negative zero among them is read as zero. -/
theorem run_start_visible_other_lists :
    ∃ records s, Run (fun _ _ => True) (Session.create Scripted.fresh .quiet).session records s ∧
      records.length = 6 ∧ ∃ row, s.solution.get? .primalCols = some row ∧
      row.toDense 2 = [0,2.5] ∧ s.solution.isValid .primalCols = true := by
  have hload : Run (fun _ _ => True) (Session.create Scripted.fresh .quiet).session _ _ :=
    .call (.long (.load ⟨none,[.free .continuous,.free .integer],[.free .empty]⟩)) trivial .start
  have hstart := hload.call (.short (.warmStart ⟨some [negativeZero,2.5],none,none,none⟩)) trivial
  have hother := hstart.call (.short (.warmStart ⟨none,some [4],none,some [0.5]⟩)) trivial
  have hlong := hother.call (.short (.warmStart ⟨some [1,2,3],none,none,none⟩)) trivial
  have hsolve := (hlong.adjust (.reject .run)).call (.long (.solve ⟨true⟩)) trivial
  have hempty := hsolve.call (.short (.addConstraints [])) trivial
  obtain ⟨row,hrow,hdense,hvalid⟩ := @run_start_visible _ _ _ _ [_,_,_,_] _ _ .primalCols _
    hempty rfl (by decide)
  have hvalues : [negativeZero,2.5].map plainZero = [0,2.5] := by decide
  exact ⟨_,_,hempty,rfl,row,hrow,hdense.trans hvalues,hvalid⟩

end SolverSession
