import SolverSession.Proofs.Lifecycle
import SolverSession.Proofs.SparseVec

/-!
# The cached solution

The solution last known fits the model at all times, although it comes from three sources and the
model changes under it. What carries this is that the lists of the engine cover the model whenever
one of its points is valid: rows that are added to a kept solution extend it, and everything else
that changes the dimensions drops it.
-/
namespace SolverSession

/-- All lists have the length of the model. -/
structure DenseSolution.Covers (d : DenseSolution) (numCols numRows : Nat) : Prop where
  colValue : d.colValue.length = numCols
  colDual : d.colDual.length = numCols
  rowValue : d.rowValue.length = numRows
  rowDual : d.rowDual.length = numRows

/-- The lists cover the model if one of the points is valid. -/
def DenseSolution.Sound (d : DenseSolution) (numCols numRows : Nat) : Prop :=
  d.valueValid = true ∨ d.dualValid = true → d.Covers numCols numRows

theorem DenseSolution.none_sound (numCols numRows : Nat) :
    DenseSolution.none.Sound numCols numRows := by
  rintro (h | h) <;> cases h

theorem DenseSolution.Covers.extend {e : Scripted} {numCols numRows : Nat}
    (h : e.solution.Covers numCols numRows) (activities : List Float) :
    (e.extend activities).Covers numCols (numRows+activities.length) where
  colValue := h.colValue
  colDual := h.colDual
  rowValue := by simp [Scripted.extend, h.rowValue]
  rowDual := by simp [Scripted.extend, h.rowDual]

namespace PointValues

/-- Both parts are compressed and within the model. -/
structure Fits (v : PointValues) (numCols numRows : Nat) : Prop where
  vars : v.vars.Compressed numCols
  constraints : v.constraints.Compressed numRows

variable {v : PointValues} {numCols numRows : Nat}

theorem empty_fits (numCols numRows : Nat) : PointValues.empty.Fits numCols numRows :=
  ⟨SparseVec.empty_compressed numCols,SparseVec.empty_compressed numRows⟩

theorem ofDense_fits {vars constraints : List Float} (hvars : vars.length = numCols)
    (hconstraints : constraints.length = numRows) :
    (PointValues.ofDense vars constraints).Fits numCols numRows :=
  ⟨hvars ▸ SparseVec.ofDense_compressed vars,
    hconstraints ▸ SparseVec.ofDense_compressed constraints⟩

theorem Fits.overwrite (h : v.Fits numCols numRows) {vars constraints : Option (List Float)}
    (hvars : ∀ values, vars = some values → values.length = numCols)
    (hconstraints : ∀ values, constraints = some values → values.length = numRows) :
    (v.overwrite vars constraints).Fits numCols numRows := by
  constructor
  · cases vars with
    | none => exact h.vars
    | some values => exact hvars values rfl ▸ SparseVec.ofDense_compressed values
  · cases constraints with
    | none => exact h.constraints
    | some values => exact hconstraints values rfl ▸ SparseVec.ofDense_compressed values

end PointValues

namespace Solution

/-- The values fit the model, and validity says which of them there are. -/
structure Fits (s : Solution) (numCols numRows : Nat) : Prop where
  primal : s.primal.Fits numCols numRows
  dual : ∀ values, s.dual = some values → values.Fits numCols numRows
  dualValid : s.dual.isSome = s.isDualValid
  primalValid : s.isValueValid = false → s.primal = .empty

variable {s : Solution} {numCols numRows : Nat}

theorem empty_fits (numCols numRows : Nat) : Solution.empty.Fits numCols numRows :=
  ⟨PointValues.empty_fits _ _,nofun,rfl,fun _ => rfl⟩

theorem ofEngine_fits {raw : DenseSolution} (h : raw.Sound numCols numRows) :
    (Solution.ofEngine raw).Fits numCols numRows where
  primal := by
    unfold ofEngine
    cases hvalid : raw.valueValid with
    | false => exact PointValues.empty_fits _ _
    | true => exact PointValues.ofDense_fits (h (.inl hvalid)).colValue (h (.inl hvalid)).rowValue
  dual := by
    unfold ofEngine
    intro values hvalues
    cases hvalid : raw.dualValid with
    | false => simp [hvalid] at hvalues
    | true =>
      simp only [hvalid, if_true, Option.some.injEq] at hvalues
      rw [← hvalues]
      exact PointValues.ofDense_fits (h (.inr hvalid)).colDual (h (.inr hvalid)).rowDual
  dualValid := by
    unfold ofEngine
    cases raw.dualValid <;> rfl
  primalValid := by
    unfold ofEngine
    intro hvalid
    simp only at hvalid
    simp [hvalid]

theorem Fits.applyStart (h : s.Fits numCols numRows) {start : WarmStart}
    (hstart : start.fault? numCols numRows = none) :
    (s.applyStart start).Fits numCols numRows := by
  have hlength := WarmStart.fault?_eq_none_iff.mp hstart
  refine ⟨h.primal.overwrite (hlength .primalCols) (hlength .primalRows),?_,?_,?_⟩
  · intro values hvalues
    unfold Solution.applyStart at hvalues
    by_cases hdual : start.suppliesDual = true
    · simp only [hdual, if_true, Option.some.injEq] at hvalues
      rw [← hvalues]
      refine .overwrite ?_ (hlength .dualCols) (hlength .dualRows)
      cases hold : s.dual with
      | none => exact PointValues.empty_fits _ _
      | some old => exact h.dual old hold
    · rw [if_neg hdual] at hvalues
      exact h.dual values hvalues
  · unfold Solution.applyStart
    rw [← h.dualValid]
    cases start.suppliesDual <;> simp
  · intro hvalid
    have hparts : s.isValueValid = false ∧ start.suppliesPrimal = false := by
      simpa [Solution.applyStart] using hvalid
    have hlists : start.primalCols = none ∧ start.primalRows = none := by
      simpa [WarmStart.suppliesPrimal] using hparts.2
    simp [Solution.applyStart, hlists, PointValues.overwrite, h.primalValid hparts.1]

end Solution

namespace Session

/-- Session and engine agree on the model, and what either knows of a solution fits it. -/
structure Sound (s : Session Scripted) : Prop where
  inStep : s.InStep
  engine : s.engine.solution.Sound s.numCols s.numRows
  cached : s.solution.Fits s.numCols s.numRows

variable {s t : Session Scripted}

theorem Sound.sameReports (h : s.Sound) {e : Scripted} (he : s.engine.SameReports e) :
    Sound { s with engine := e } :=
  ⟨h.inStep.sameReports he,he.solution ▸ h.engine,h.cached⟩

theorem refresh_fits (h : s.engine.solution.Sound s.numCols s.numRows) :
    s.refresh.1.solution.Fits s.numCols s.numRows := by
  unfold refresh
  cases s.cached with
  | none => exact Solution.empty_fits _ _
  | some old =>
    dsimp only
    split
    · exact Solution.ofEngine_fits h
    · exact Solution.empty_fits _ _

theorem Sound.refresh (hcols : s.numCols = s.engine.numCols)
    (hrows : s.numRows = s.engine.numRows)
    (hengine : s.engine.solution.Sound s.numCols s.numRows) : s.refresh.1.Sound := by
  obtain ⟨hc,hr⟩ := refresh_dims s
  refine ⟨.refresh hcols hrows,?_,?_⟩
  · rw [refresh_engine, hc, hr]
    exact hengine
  · rw [hc, hr]
    exact refresh_fits hengine

theorem blank_sound {e : Scripted} (he : e.Blank) (numCols numRows : Nat) :
    e.solution.Sound numCols numRows :=
  he.solution ▸ DenseSolution.none_sound numCols numRows

theorem rowsAdded_sound {e f : Scripted} {count numCols numRows : Nat}
    (he : e.solution.Sound numCols numRows) (hf : e.RowsAdded f count) :
    f.solution.Sound numCols (numRows+count) := by
  rcases hf.solution with hblank | ⟨hvalid,-,-,activities,rfl,hextend⟩
  · exact blank_sound hblank _ _
  · intro _
    rw [hextend]
    exact (he (.inl hvalid)).extend activities

/-- Whatever is scripted for a solve that comes to run covers the model. -/
def ScriptCovers (s : Session Scripted) (c : SessionCall) : Prop :=
  ∀ options code solution, c = .long (.solve options) → s.engine.rejected ≠ some .run →
    s.engine.next = some (code,solution) → solution.Covers s.numCols s.numRows

theorem effect_eq_solve {c : SessionCall} {β : Type} {outcome : Outcome Failure β}
    (h : c.effect outcome = .solve) : ∃ options, c = .long (.solve options) := by
  cases outcome with
  | ok x =>
    simp only [SessionCall.effect] at h
    unfold SessionCall.success at h
    split at h
    case h_3 options => exact ⟨options,rfl⟩
    all_goals cases h
  | failed cause =>
    simp only [SessionCall.effect] at h
    unfold SessionCall.failure at h
    split at h
    case h_3 options _ => exact ⟨options,rfl⟩
    all_goals cases h
  | crashed => cases h

theorem advance_sound {c : SessionCall} {x : Effect} (hs : s.Sound) (hc : s.ScriptCovers c)
    (hx : x = .solve → ∃ options, c = .long (.solve options)) (h : s.Advance x t) : t.Sound := by
  have hstep := advance_inStep hs.inStep h
  cases h with
  | none he => exact hs.sameReports he
  | load hcols hrows he => exact ⟨hstep,blank_sound he _ _,Solution.empty_fits _ _⟩
  | @drop e he =>
    have hsound : e.solution.Sound e.numCols e.numRows := by
      rw [he.solution, he.numCols, he.numRows, ← hs.inStep.numCols, ← hs.inStep.numRows]
      exact hs.engine
    exact ⟨hstep,hsound,Solution.empty_fits _ _⟩
  | rows he =>
    refine .refresh ?_ ?_ (rowsAdded_sound hs.engine he)
    · exact hs.inStep.numCols.trans he.numCols.symm
    · rw [he.numRows, hs.inStep.numRows]
  | cols hcols hrows he =>
    refine .refresh ?_ ?_ (blank_sound he _ _)
    · rw [hcols, hs.inStep.numCols]
    · exact hs.inStep.numRows.trans hrows.symm
  | start he hstart =>
    exact ⟨hstep,(hs.sameReports he).engine,hs.cached.applyStart hstart⟩
  -- Only here the condition on the script is used; without a script nothing valid is reported.
  | @solve e code solution hrun hnext hcols hrows hcode hinfo hsolution =>
    have hsound : e.solution.Sound s.numCols s.numRows := by
      rw [hsolution]
      cases hscript : s.engine.next with
      | none =>
        rw [hscript] at hnext
        cases hnext
        exact DenseSolution.none_sound _ _
      | some scripted =>
        rw [hscript] at hnext
        cases hnext
        obtain ⟨options,rfl⟩ := hx rfl
        exact fun _ => hc options code solution rfl hrun hscript
    exact ⟨hstep,hsound,Solution.ofEngine_fits hsound⟩
  | reset hcols hrows he => exact ⟨hstep,blank_sound he _ _,Solution.empty_fits _ _⟩

theorem Sound.finishes (h : s.Sound) (c : SessionCall) : s.Finishes c :=
  perform_not_crashed (fun hvalid => Nat.le_of_eq (h.engine (.inl hvalid)).colValue.symm) c

theorem Opened.sound (h : s.Opened) : s.Sound := by
  have hstep := h.inStep
  obtain ⟨e,he,rfl⟩ := h.reports
  exact ⟨hstep,he.solution ▸ DenseSolution.none_sound _ _,Solution.empty_fits _ _⟩

theorem sound_of_run {first : Session Scripted} {records : List CallRecord} (hfirst : first.Opened)
    (hrun : Run ScriptCovers first records s) : s.Sound := by
  induction hrun with
  | start => exact hfirst.sound
  | adjust x h ih => exact ih.sameReports (Scripted.sameReports_adjust _ x)
  | call c hc h ih => exact advance_sound ih hc effect_eq_solve (perform_advance (ih.finishes c))

end Session

/-- In every run whose scripted solutions cover the model when they are reported, no call is cut
short and the solution last known fits the model. -/
theorem run_solution_fits {first s : Session Scripted} {records : List CallRecord}
    (hfirst : first.Opened) (hrun : Run Session.ScriptCovers first records s) :
    (∀ c, s.Finishes c) ∧ s.solution.Fits s.numCols s.numRows := by
  suffices hs : s.Sound from ⟨hs.finishes,hs.cached⟩
  induction hrun with
  | start =>
    have hstep := hfirst.inStep
    obtain ⟨e,he,rfl⟩ := hfirst.reports
    exact ⟨hstep,he.solution ▸ DenseSolution.none_sound _ _,Solution.empty_fits _ _⟩
  | adjust x h ih => exact ih.sameReports (Scripted.sameReports_adjust _ x)
  | call c hc h ih =>
    exact Session.advance_sound ih hc Session.effect_eq_solve
      (Session.perform_advance (ih.finishes c))

/-- A solution that is kept while a row is added. -/
theorem run_solution_fits_kept_solution :
    ∃ records s, Run Session.ScriptCovers (Session.create Scripted.fresh .quiet).session records s ∧
      records.length = 3 ∧ s.solution.isValueValid = true ∧ s.solution.Fits 1 2 := by
  have hopen : (Session.create Scripted.fresh .quiet).session.Opened :=
    @Session.Opened.create [] .quiet rfl
  have hload : Run Session.ScriptCovers (Session.create Scripted.fresh .quiet).session _ _ :=
    .call (.long (.load ⟨none,[.free .continuous],[.free .empty]⟩)) (fun _ _ _ h => nomatch h)
      .start
  have hsolve := ((hload.adjust (.keepSolution true)).adjust
    (.script 7 ⟨true,false,[2],[0],[3],[0]⟩)).call (.long (.solve ⟨false⟩))
    (fun _ _ _ _ _ h => by cases h; exact ⟨rfl,rfl,rfl,rfl⟩)
  have hrow := hsolve.call (.short (.addConstraints [.free ⟨[0],[1]⟩])) (fun _ _ _ h => nomatch h)
  obtain ⟨-,hfits⟩ := run_solution_fits hopen hrow
  exact ⟨_,_,hrow,rfl,rfl,hfits⟩

end SolverSession
