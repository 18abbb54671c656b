import SolverSession.Proofs.Runs

/-!
# The status of the point and the solution

A session reads the status of the point off its engine and the solution off a copy of its own. Both
speak of the same point until a file cannot be read: then the engine keeps its point, and the
session drops the copy.
-/
namespace SolverSession

/-- The session's copy of a valid point. -/
inductive Copy where
  | valid
  /-- There is none since a file could not be read. -/
  | dropped
  /-- There is one again, without the point, since a start without primal values was taken. -/
  | makeshift
deriving DecidableEq

namespace Copy

/-- The copy after a further effect. When rows are added, a copy is read again, and what was dropped
is not. -/
def after : Copy → Effect → Copy
  | _, .solve => valid
  | _, .drop => dropped
  | makeshift, .rows _ => valid
  | valid, .start _ => valid
  | _, .start start => if start.suppliesPrimal then valid else makeshift
  | copy, _ => copy

def ofEffects (effects : List Effect) : Copy :=
  effects.foldr (fun x copy => copy.after x) valid

def Describes : Copy → Option Solution → Prop
  | valid, cached => ∃ x, cached = some x ∧ x.isValueValid = true
  | dropped, cached => cached = none
  | makeshift, cached => ∃ x, cached = some x ∧ x.isValueValid = false

variable {copy : Copy} {cached : Option Solution}

theorem Describes.isValueValid_iff (h : copy.Describes cached) :
    (cached.getD .empty).isValueValid = true ↔ copy = valid := by
  cases copy with
  | valid =>
    obtain ⟨x,rfl,hx⟩ := h
    simpa using hx
  | dropped =>
    obtain rfl := h
    simp [Solution.empty]
  | makeshift =>
    obtain ⟨x,rfl,hx⟩ := h
    simp [hx]

theorem Describes.start (h : copy.Describes cached) (start : WarmStart) :
    (copy.after (.start start)).Describes
      (some ((cached.getD .empty).applyStart start)) := by
  have hvalid : ((cached.getD .empty).applyStart start).isValueValid =
      ((cached.getD .empty).isValueValid || start.suppliesPrimal) := rfl
  -- A valid copy stays valid; any other has the point afterwards if the start supplies it.
  by_cases hcopy : copy = valid
  · rw [h.isValueValid_iff.mpr hcopy, Bool.true_or] at hvalid
    subst hcopy
    exact ⟨_,rfl,hvalid⟩
  · rw [Bool.eq_false_iff.mpr (mt h.isValueValid_iff.mp hcopy), Bool.false_or] at hvalid
    have hafter : copy.after (.start start) = if start.suppliesPrimal then valid else makeshift := by
      cases copy <;> first | rfl | exact absurd rfl hcopy
    rw [hafter]
    split
    · exact ⟨_,rfl,hvalid.trans ‹_›⟩
    · exact ⟨_,rfl,hvalid.trans (Bool.eq_false_iff.mpr ‹_›)⟩

theorem Describes.reread (h : copy.Describes cached) {read : Solution}
    (hread : read.isValueValid = true) (count : Nat) :
    (copy.after (.rows count)).Describes (cached.map fun _ => read) := by
  cases copy with
  | dropped => exact congrArg (Option.map _) h
  | valid =>
    obtain ⟨x,hx,-⟩ := h
    exact ⟨read,congrArg (Option.map _) hx,hread⟩
  | makeshift =>
    obtain ⟨x,hx,-⟩ := h
    exact ⟨read,congrArg (Option.map _) hx,hread⟩

end Copy

namespace Session

/-- The engine calls the point feasible only where it holds one, and `copy` is the session's. -/
structure Copies (s : Session Scripted) (copy : Copy) : Prop where
  holds : s.engine.info.primalPoint = .feasible → s.engine.solution.valueValid = true
  describes : s.engine.solution.valueValid = true → copy.Describes s.cached

variable {s t : Session Scripted} {copy : Copy} {x : Effect}

theorem copies_blank (hs : s.engine.Blank) (copy : Copy) : s.Copies copy where
  holds := by
    rw [hs.info]
    exact nofun
  describes := by
    rw [hs.solution]
    exact nofun

theorem Copies.sameValidity (hs : s.Copies copy) {e : Scripted} (hinfo : e.info = s.engine.info)
    (hvalid : e.solution.valueValid = s.engine.solution.valueValid) :
    Copies { s with engine := e } copy :=
  ⟨by simpa only [hinfo, hvalid] using hs.holds,by simpa only [hvalid] using hs.describes⟩

theorem Copies.sameReports (hs : s.Copies copy) {e : Scripted} (he : s.engine.SameReports e) :
    Copies { s with engine := e } copy :=
  hs.sameValidity he.info (congrArg DenseSolution.valueValid he.solution)

theorem refresh_cached (hvalid : s.engine.solution.valueValid = true) :
    s.refresh.1.cached = s.cached.map fun _ => .ofEngine s.engine.solution := by
  unfold refresh
  cases s.cached with
  | none => rfl
  | some old =>
    simp only [Engine.solution, hvalid, Bool.true_or, if_true]
    rfl

theorem infoOf_feasible {solution : DenseSolution}
    (h : (Scripted.infoOf solution).primalPoint = .feasible) : solution.valueValid = true := by
  cases hvalid : solution.valueValid with
  | true => rfl
  | false =>
    simp only [Scripted.infoOf, hvalid] at h
    exact nomatch h

theorem Copies.rows (hs : s.Copies copy) {e : Scripted} {count : Nat}
    (he : s.engine.RowsAdded e count) :
    Copies { s with engine := e, numRows := s.numRows+count }.refresh.1
      (copy.after (.rows count)) := by
  rcases he.solution with hblank | ⟨hvalid,-,hinfo,activities,-,hextend⟩
  · apply copies_blank
    rw [refresh_engine]
    exact hblank
  · have hkept : e.solution.valueValid = true := by rw [hextend]; exact hvalid
    refine ⟨fun _ => ?_,fun _ => ?_⟩
    · rw [refresh_engine]
      exact hkept
    · rw [refresh_cached hkept]
      exact (hs.describes hvalid).reread hkept count

theorem advance_copies (hs : s.Copies copy) (h : s.Advance x t) : t.Copies (copy.after x) := by
  cases h with
  | none he => exact hs.sameReports he
  | load hcols hrows he => exact copies_blank he _
  | drop he => exact ⟨(hs.sameReports he).holds,fun _ => rfl⟩
  | rows he => exact hs.rows he
  | cols hcols hrows he =>
    apply copies_blank
    rw [refresh_engine]
    exact he
  | start he hstart =>
    have hnext := hs.sameReports he
    exact ⟨hnext.holds,fun hvalid => (hnext.describes hvalid).start _⟩
  | @solve e code solution hrun hnext hcols hrows hcode hinfo hsolution =>
    refine ⟨fun hfeasible => ?_,fun hvalid => ⟨_,rfl,hvalid⟩⟩
    change e.info.primalPoint = .feasible at hfeasible
    change e.solution.valueValid = true
    rw [hinfo] at hfeasible
    rw [hsolution]
    exact infoOf_feasible hfeasible
  | reset hcols hrows he => exact copies_blank he _

theorem perform_copies (hs : s.Copies copy) (c : SessionCall) :
    (c.perform s).session.Copies (copy.after (c.effect (c.perform s).outcome)) := by
  -- A call that is cut short has no effect, although the engine may count rows it did not finish.
  by_cases hcrashed : (c.perform s).outcome = .crashed
  · obtain ⟨e,hinfo,⟨activities,hsolution⟩,hsession⟩ := perform_crashed hcrashed
    rw [hsession, hcrashed]
    exact hs.sameValidity hinfo (by rw [hsolution]; rfl)
  · exact advance_copies hs (perform_advance hcrashed)

theorem Copies.holds_of_pointStatus (hs : s.Copies copy) (h : s.pointStatus = .feasible) :
    s.engine.solution.valueValid = true := by
  unfold pointStatus at h
  split at h
  · exact nomatch h
  · exact hs.holds h

end Session

theorem run_copies {first s : Session Scripted} {records : List CallRecord}
    {allowed : Session Scripted → SessionCall → Prop} (hfirst : first.Opened)
    (hrun : Run allowed first records s) :
    s.Copies (Copy.ofEffects (records.map (·.effect))) := by
  induction hrun with
  | start =>
    obtain ⟨e,he,rfl⟩ := hfirst.reports
    exact Session.copies_blank ⟨he.statusCode,he.info,he.solution⟩ _
  | adjust x h ih => exact ih.sameReports (Scripted.sameReports_adjust _ x)
  | call c hc h ih => exact Session.perform_copies ih c

/-- In every run, also one with calls that are cut short: where the status of the point is feasible,
the solution has a valid point unless the copy of it was dropped for a file that could not be read,
and neither a solve, nor a start with primal values, nor rows added after another start have made
up for that. -/
theorem run_pointStatus {first s : Session Scripted} {records : List CallRecord}
    (hfirst : first.Opened) (hrun : Run (fun _ _ => True) first records s)
    (hfeasible : s.pointStatus = .feasible) :
    s.solution.isValueValid = true ↔ Copy.ofEffects (records.map (·.effect)) = .valid := by
  have hs := run_copies hfirst hrun
  exact (hs.describes (hs.holds_of_pointStatus hfeasible)).isValueValid_iff

/-- The copy is dropped for a missing file and made up for by a start. -/
theorem run_pointStatus_restarted :
    ∃ records s, Run (fun _ _ => True) (Session.create Scripted.fresh .quiet).session records s ∧
      records.length = 4 ∧ s.pointStatus = .feasible ∧
      (s.solution.isValueValid = true ↔ Copy.ofEffects (records.map (·.effect)) = .valid) := by
  have hopen : (Session.create Scripted.fresh .quiet).session.Opened :=
    @Session.Opened.create [] .quiet rfl
  have hload : Run (fun _ _ => True) (Session.create Scripted.fresh .quiet).session _ _ :=
    .call (.long (.load ⟨none,[.free .continuous],[]⟩)) trivial .start
  have hsolve := (hload.adjust (.script 7 ⟨true,false,[2],[0],[],[]⟩)).call
    (.long (.solve ⟨false⟩)) trivial
  have hmissing := hsolve.call (.long (.loadFile "missing")) trivial
  have hstart := hmissing.call (.short (.warmStart ⟨some [1],none,none,none⟩)) trivial
  exact ⟨_,_,hstart,rfl,rfl,run_pointStatus hopen hstart rfl⟩

/-- After a solve and a missing file the point is still feasible, and the solution is not valid. -/
theorem feasible_point_without_solution :
    ∃ records s, Run (fun _ _ => True) (Session.create Scripted.fresh .quiet).session records s ∧
      (Session.create Scripted.fresh .quiet).session.Opened ∧
      records.map (·.call) = [.long (.loadFile "missing"),.long (.solve ⟨false⟩),
        .long (.load ⟨none,[.free .continuous],[]⟩)] ∧
      s.pointStatus = .feasible ∧ s.solution.isValueValid = false := by
  have hload : Run (fun _ _ => True) (Session.create Scripted.fresh .quiet).session _ _ :=
    .call (.long (.load ⟨none,[.free .continuous],[]⟩)) trivial .start
  have hsolve := (hload.adjust (.script 7 ⟨true,false,[2],[0],[],[]⟩)).call
    (.long (.solve ⟨false⟩)) trivial
  have hmissing := hsolve.call (.long (.loadFile "missing")) trivial
  exact ⟨_,_,hmissing,@Session.Opened.create [] .quiet rfl,rfl,rfl,rfl⟩

end SolverSession
