import SolverSession.Proofs.Calls
import SolverSession.Proofs.ScriptedEngine

/-!
# Effects of calls

`SessionCall.effect` reads off a call and its outcome what the call did to a session over the
scripted engine, and `Session.Advance` says what each effect means for session and engine. After
`Session.perform_advance` no proof about dimensions, status or solution opens a call again: what
holds of every run follows from the effects.
-/
namespace SolverSession

inductive Effect where
  | none
  | load (numCols numRows : Nat)
  | drop
  | rows (count : Nat)
  | cols (count : Nat)
  | start (start : WarmStart)
  | solve
  | reset

/-- The effect of a call that returns. Adding nothing has none. -/
def SessionCall.success : SessionCall → Effect
  | .long (.load model) => .load model.vars.length model.constraints.length
  | .long (.loadFile _) => .load 0 0
  | .long (.solve _) => .solve
  | .short (.addConstraints (row :: rows)) => .rows (row :: rows).length
  | .short (.addVariables (column :: columns)) => .cols (column :: columns).length
  | .short (.warmStart start) => .start start
  | .short .reset => .reset
  | _ => .none

/-- The effect of a call that fails. A load that the engine refused has emptied the model; a file
that could not be read has only cost the solution. -/
def SessionCall.failure : SessionCall → Failure → Effect
  | .long (.load _), .native _ _ => .load 0 0
  | .long (.loadFile _), _ => .drop
  | .long (.solve _), .nonOptimal _ => .solve
  | _, _ => .none

def SessionCall.effect {β : Type} (c : SessionCall) : Outcome Failure β → Effect
  | .ok _ => c.success
  | .failed cause => c.failure cause
  | .crashed => .none

theorem SessionCall.effect_mapValue {σ β γ : Type} (c : SessionCall) (f : β → γ)
    (a : Answer σ β) : c.effect (a.mapValue f).outcome = c.effect a.outcome := by
  cases h : a.outcome <;> simp [effect, Answer.mapValue, h]

namespace Session

inductive Advance (s : Session Scripted) : Effect → Session Scripted → Prop where
  | none {e : Scripted} (he : s.engine.SameReports e) : Advance s .none { s with engine := e }
  | load {e : Scripted} {numCols numRows : Nat} (hcols : e.numCols = numCols)
      (hrows : e.numRows = numRows) (he : e.Blank) :
      Advance s (.load numCols numRows) ⟨e,.notSet,numCols,numRows,Option.none⟩
  | drop {e : Scripted} (he : s.engine.SameReports e) :
      Advance s .drop { s with engine := e }.followEngine
  | rows {e : Scripted} {count : Nat} (he : s.engine.RowsAdded e count) :
      Advance s (.rows count) { s with engine := e, numRows := s.numRows+count }.refresh.1
  | cols {e : Scripted} {count : Nat} (hcols : e.numCols = s.engine.numCols+count)
      (hrows : e.numRows = s.engine.numRows) (he : e.Blank) :
      Advance s (.cols count) { s with engine := e, numCols := s.numCols+count }.refresh.1
  | start {e : Scripted} {start : WarmStart} (he : s.engine.SameReports e)
      (hstart : start.fault? s.numCols s.numRows = Option.none) :
      Advance s (.start start)
        { s with engine := e, cached := some ((s.cached.getD .empty).applyStart start) }
  | solve {e : Scripted} {code : Int32} {solution : DenseSolution}
      (hrun : s.engine.rejected ≠ some .run)
      (hnext : s.engine.next.getD (0,.none) = (code,solution))
      (hcols : e.numCols = s.engine.numCols) (hrows : e.numRows = s.engine.numRows)
      (hcode : e.statusCode = code) (hinfo : e.info = Scripted.infoOf solution)
      (hsolution : e.solution = solution) :
      Advance s .solve { s with engine := e }.solved
  | reset {e : Scripted} (hcols : e.numCols = s.engine.numCols)
      (hrows : e.numRows = s.engine.numRows) (he : e.Blank) :
      Advance s .reset { s with engine := e, cached := Option.none, status := .notSet }

theorem Advance.of_effect_none {s t : Session Scripted} (h : s.Advance .none t) :
    ∃ e, s.engine.SameReports e ∧ t = { s with engine := e } := by
  cases h with
  | none he => exact ⟨_,he,rfl⟩

/-- A call the engine may reject: what it does is settled by its two branches. -/
theorem checked_advance {s : Session Scripted} {c : SessionCall} {call : EngineCall}
    {method : Method} {fails : Scripted → Scripted} {goesOn : Scripted → Reply Scripted}
    {β : Type} {refused : String → Session Scripted → Answer Scripted β}
    {returned : Session Scripted → Answer Scripted β}
    (hrejected : let t : Session Scripted :=
        { s with engine := fails { s.engine with rejected := .none } }
      s.Advance (c.effect (refused "scripted rejection" t).outcome)
        (refused "scripted rejection" t).session)
    (hgoesOn : s.engine.rejected ≠ some method →
      s.Advance (c.effect (s.calling call (goesOn s.engine) refused returned).outcome)
        (s.calling call (goesOn s.engine) refused returned).session) :
    s.Advance
      (c.effect (s.calling call (s.engine.checked method fails goesOn) refused returned).outcome)
      (s.calling call (s.engine.checked method fails goesOn) refused returned).session :=
  Scripted.checked_cases (P := fun r => s.Advance
    (c.effect (s.calling call r refused returned).outcome)
    (s.calling call r refused returned).session) (fun _ => hrejected) hgoesOn

theorem load_advance (s : Session Scripted) (model : Model Float) :
    s.Advance (SessionCall.effect (.long (.load model)) (s.load model).outcome)
      (s.load model).session := by
  unfold load
  cases hflat : model.flatten with
  | error fault => exact .none (Scripted.sameReports_refl _)
  | ok flat =>
    obtain ⟨hcols,hrows⟩ := Model.flatten_dims hflat
    dsimp only [Engine.passModel, Scripted.passModel]
    refine checked_advance ?_ fun _ => ?_
    · exact .load rfl rfl (Scripted.forget_blank _)
    · change s.Advance (.load model.vars.length model.constraints.length) _
      rw [← hcols, ← hrows]
      exact .load rfl rfl (Scripted.forget_blank _)

theorem loadFile_advance (s : Session Scripted) (path : String) :
    s.Advance (SessionCall.effect (.long (.loadFile path)) (s.loadFile path).outcome)
      (s.loadFile path).session := by
  unfold loadFile
  dsimp only [Engine.readModel, Scripted.readModel]
  refine checked_advance ?_ fun _ => ?_
  · exact .drop ⟨rfl,rfl,rfl,rfl,rfl⟩
  · split
    · exact .load rfl rfl (Scripted.forget_blank _)
    · exact .drop ⟨rfl,rfl,rfl,rfl,rfl⟩

theorem addConstraints_advance {s : Session Scripted} {rows : List (Constraint Float)}
    (h : (s.addConstraints rows).outcome ≠ .crashed) :
    s.Advance (SessionCall.effect (.short (.addConstraints rows)) (s.addConstraints rows).outcome)
      (s.addConstraints rows).session := by
  unfold addConstraints at h ⊢
  cases hbatch : RowBatch.ofConstraints rows s.numCols with
  | error fault => exact .none (Scripted.sameReports_refl _)
  | ok batch =>
    have hsize := RowBatch.size_ofConstraints hbatch
    simp only [hbatch, hsize] at h ⊢
    cases rows with
    | nil => exact .none (Scripted.sameReports_refl _)
    | cons row rows =>
      rw [if_neg (by simp)] at h ⊢
      rcases Scripted.addRows_cases hbatch with hr | ⟨f,hr,hf⟩ | ⟨hr,-⟩
      · rw [show Engine.addRows batch s.engine = _ from hr]
        exact .none ⟨rfl,rfl,rfl,rfl,rfl⟩
      · rw [show Engine.addRows batch s.engine = _ from hr]
        exact .rows hf
      · rw [calling_crashed (show (Engine.addRows batch s.engine).outcome = _ from hr)] at h
        exact absurd rfl h

theorem addVariables_advance (s : Session Scripted) (columns : List (Column Float)) :
    s.Advance (SessionCall.effect (.short (.addVariables columns))
      (s.addVariables columns).outcome) (s.addVariables columns).session := by
  unfold addVariables
  cases hbatch : ColumnBatch.ofColumns columns s.numRows with
  | error fault => exact .none (Scripted.sameReports_refl _)
  | ok batch =>
    have hsize := ColumnBatch.size_ofColumns hbatch
    simp only [hsize]
    cases columns with
    | nil => exact .none (Scripted.sameReports_refl _)
    | cons column columns =>
      rw [if_neg (by simp)]
      dsimp only [Engine.addCols, Scripted.addCols]
      refine checked_advance ?_ fun _ => ?_
      · exact .none ⟨rfl,rfl,rfl,rfl,rfl⟩
      · exact .cols (congrArg (s.engine.numCols+·) hsize) rfl (Scripted.forget_blank _)

theorem warmStart_advance (s : Session Scripted) (start : WarmStart) :
    s.Advance (SessionCall.effect (.short (.warmStart start)) (s.warmStart start).outcome)
      (s.warmStart start).session := by
  unfold warmStart
  cases hfault : start.fault? s.numCols s.numRows with
  | some fault => exact .none (Scripted.sameReports_refl _)
  | none =>
    dsimp only [Engine.setSolution, Scripted.setSolution]
    refine checked_advance ?_ fun _ => ?_
    · exact .none ⟨rfl,rfl,rfl,rfl,rfl⟩
    · exact .start ⟨rfl,rfl,rfl,rfl,rfl⟩ hfault

theorem conclude_effect (s : Session Scripted) (primal : PointStatus) (options : SolveOptions) :
    SessionCall.effect (.long (.solve options)) (s.conclude primal options).outcome = .solve := by
  unfold conclude SolveOptions.accept
  by_cases h : s.status.isSuccess primal || options.allowNonOptimal
  · simp only [h, if_true]
    rfl
  · simp only [h]
    rfl

theorem solve_advance (s : Session Scripted) (options : SolveOptions) :
    s.Advance (SessionCall.effect (.long (.solve options)) (s.solve options).outcome)
      (s.solve options).session := by
  unfold solve
  dsimp only [Engine.run, Scripted.run]
  refine checked_advance ?_ fun hrun => ?_
  · exact .none ⟨rfl,rfl,rfl,rfl,rfl⟩
  · rw [calling_ok rfl]
    simp only [Answer.after_outcome, Answer.after_session]
    rw [conclude_effect, conclude_session]
    exact .solve hrun rfl rfl rfl rfl rfl rfl

theorem reset_advance (s : Session Scripted) :
    s.Advance (SessionCall.effect (.short .reset) s.reset.outcome) s.reset.session := by
  unfold reset
  dsimp only [Engine.clearSolver]
  refine checked_advance ?_ fun _ => ?_
  · exact .none ⟨rfl,rfl,rfl,rfl,rfl⟩
  · exact .reset rfl rfl (Scripted.forget_blank _)

theorem writeText_reports (e : Scripted) (path text : String) :
    Scripted.SameReports e (e.writeText path text).engine := by
  unfold Scripted.writeText
  split <;> exact ⟨rfl,rfl,rfl,rfl,rfl⟩

theorem setOption_reports (e : Scripted) (name : String) (value : OptionValue) :
    Scripted.SameReports e (e.setOption name value).engine := by
  unfold Scripted.setOption
  refine Scripted.checked_cases (P := fun r => Scripted.SameReports e r.engine) (fun _ => ?_)
    (fun _ => ?_)
  · exact ⟨rfl,rfl,rfl,rfl,rfl⟩
  · split <;> exact ⟨rfl,rfl,rfl,rfl,rfl⟩

theorem writing_advance (s : Session Scripted) (call : EngineCall) (method : Method)
    (path text : String) :
    s.Advance .none (s.calling call (s.engine.checked method id (Scripted.writeText path text))
      (refusedBy method) fun s => (s.succeed () [] : Answer Scripted Unit)).session := by
  refine Scripted.checked_cases (P := fun r => s.Advance .none (s.calling call r _ _).session)
    (fun _ => ?_) (fun _ => ?_)
  · exact .none ⟨rfl,rfl,rfl,rfl,rfl⟩
  · exact calling_cases (P := fun _ t => s.Advance .none t)
      (fun _ => .none (writeText_reports _ _ _)) (fun _ _ => .none (writeText_reports _ _ _))
      (fun _ => .none (writeText_reports _ _ _))

theorem setOptions_advance (s : Session Scripted) (options : List (String × OptionValue)) :
    s.Advance .none (s.setOptions options).session := by
  refine setOptions_keeps (fun t name value ht => ?_) (.none (Scripted.sameReports_refl _)) options
  cases ht with
  | none he => exact .none (he.trans (setOption_reports _ name value))

theorem option_session (s : Session Scripted) (name : String) :
    (s.option name).session = s := by
  unfold option
  split <;> rfl

theorem Advance.of_none {s t : Session Scripted} {c : SessionCall} {β : Type}
    {outcome : Outcome Failure β} (hsuccess : c.success = .none)
    (hfailure : ∀ cause, c.failure cause = .none) (h : s.Advance .none t) :
    s.Advance (c.effect outcome) t := by
  cases outcome with
  | ok x => exact (congrArg (s.Advance · t) hsuccess).mpr h
  | failed cause => exact (congrArg (s.Advance · t) (hfailure cause)).mpr h
  | crashed => exact h

/-- Every call that is not cut short advances the session as its outcome says. -/
theorem perform_advance {s : Session Scripted} {c : SessionCall}
    (h : (c.perform s).outcome ≠ .crashed) :
    s.Advance (c.effect (c.perform s).outcome) (c.perform s).session := by
  cases c with
  | long c =>
    rw [SessionCall.perform, SessionCall.effect_mapValue]
    cases c <;> simp only [LongCall.perform, SessionCall.effect_mapValue,
      Answer.mapValue_session]
    case load model => exact load_advance s model
    case loadFile path => exact loadFile_advance s path
    case solve options => exact solve_advance s options
    case writeModel path =>
      exact .of_none rfl (fun _ => rfl) (writing_advance s _ _ _ _)
    case writeSolution path style =>
      exact .of_none rfl (fun _ => rfl) (writing_advance s _ _ _ _)
  | short c =>
    rw [SessionCall.perform, SessionCall.effect_mapValue]
    cases c <;> simp only [ShortCall.perform, SessionCall.effect_mapValue,
      Answer.mapValue_session]
    case addConstraints rows =>
      refine addConstraints_advance fun hcrash => h ?_
      simp [SessionCall.perform, ShortCall.perform, hcrash]
    case addVariables columns => exact addVariables_advance s columns
    case warmStart start => exact warmStart_advance s start
    case setOptions options =>
      exact .of_none rfl (fun _ => rfl) (setOptions_advance s options)
    case option name =>
      rw [option_session]
      exact .of_none rfl (fun _ => rfl) (.none (Scripted.sameReports_refl _))
    case reset => exact reset_advance s

/-! ## No call is cut short -/

theorem undoOptions_not_crashed (s : Session Scripted) (values : List (String × OptionValue)) :
    (s.undoOptions values).outcome ≠ .crashed := by
  induction values generalizing s with
  | nil => simp [undoOptions]
  | cons entry rest ih =>
    exact calling_not_crashed (Scripted.setOption_not_crashed _ _ _) (fun _ t => ih t)
      (fun t => ih t)

theorem applyOptions_not_crashed (s : Session Scripted) (applied : List (String × OptionValue))
    (todo : List ((String × OptionValue) × OptionValue)) :
    (s.applyOptions applied todo).outcome ≠ .crashed := by
  induction todo generalizing s applied with
  | nil => simp [applyOptions]
  | cons entry rest ih =>
    refine calling_not_crashed (Scripted.setOption_not_crashed _ _ _) (fun message t => ?_)
      (fun t => ih t _)
    dsimp only
    split
    · simp
    · exact undoOptions_not_crashed t applied

theorem setOptions_not_crashed (s : Session Scripted) (options : List (String × OptionValue)) :
    (s.setOptions options).outcome ≠ .crashed := by
  unfold setOptions
  split
  · simp
  · split
    · simp
    · exact applyOptions_not_crashed s _ _

theorem addConstraints_not_crashed {s : Session Scripted} {rows : List (Constraint Float)}
    (h : s.engine.solution.valueValid = true → s.numCols ≤ s.engine.solution.colValue.length) :
    (s.addConstraints rows).outcome ≠ .crashed := by
  unfold addConstraints
  cases hbatch : RowBatch.ofConstraints rows s.numCols with
  | error fault => simp
  | ok batch =>
    dsimp only
    split
    · simp
    · refine calling_not_crashed ?_ (fun _ _ => by simp [refusedBy]) (fun _ => by simp)
      rcases Scripted.addRows_cases (e := s.engine) hbatch with
        hr | ⟨f,hr,-⟩ | ⟨-,hvalid,hfew⟩
      · simp [Engine.addRows, hr, Reply.failed]
      · simp [Engine.addRows, hr, Reply.ok]
      · exact absurd (h hvalid) (Nat.not_le.mpr hfew)

/-- Nothing but adding rows can be cut short. -/
theorem perform_not_crashed_of_ne {s : Session Scripted} {c : SessionCall}
    (hc : ∀ rows, c ≠ .short (.addConstraints rows)) : (c.perform s).outcome ≠ .crashed := by
  cases c with
  | long c =>
    cases c <;> simp only [SessionCall.perform, LongCall.perform, ne_eq, Answer.mapValue_crashed]
    case load model =>
      unfold load
      cases model.flatten with
      | error fault => simp
      | ok flat =>
        exact calling_not_crashed (Scripted.checked_not_crashed (by simp [Reply.ok]))
          (fun _ _ => by simp) (fun _ => by simp)
    case loadFile path =>
      refine calling_not_crashed (Scripted.checked_not_crashed ?_) (fun _ _ => by simp)
        (fun _ => by simp)
      split <;> simp [Reply.ok, Reply.failed]
    case solve options =>
      refine calling_not_crashed (Scripted.checked_not_crashed (by simp [Reply.ok]))
        (fun _ _ => by simp [refusedBy]) (fun t => ?_)
      rw [Answer.after_outcome]
      unfold conclude
      split <;> simp
    case writeModel path =>
      exact calling_not_crashed
        (Scripted.checked_not_crashed (Scripted.writeText_not_crashed _ _ _))
        (fun _ _ => by simp [refusedBy]) (fun _ => by simp)
    case writeSolution path style =>
      exact calling_not_crashed
        (Scripted.checked_not_crashed (Scripted.writeText_not_crashed _ _ _))
        (fun _ _ => by simp [refusedBy]) (fun _ => by simp)
  | short c =>
    cases c <;> simp only [SessionCall.perform, ShortCall.perform, ne_eq, Answer.mapValue_crashed]
    case addConstraints rows => exact absurd rfl (hc rows)
    case addVariables columns =>
      unfold addVariables
      cases ColumnBatch.ofColumns columns s.numRows with
      | error fault => simp
      | ok batch =>
        dsimp only
        split
        · simp
        · exact calling_not_crashed (Scripted.checked_not_crashed (by simp [Reply.ok]))
            (fun _ _ => by simp [refusedBy]) (fun _ => by simp)
    case warmStart start =>
      unfold warmStart
      cases start.fault? s.numCols s.numRows with
      | some fault => simp
      | none =>
        exact calling_not_crashed (Scripted.checked_not_crashed (by simp [Reply.ok]))
          (fun _ _ => by simp [refusedBy]) (fun _ => by simp)
    case setOptions options => exact setOptions_not_crashed s options
    case option name =>
      unfold option
      split <;> simp
    case reset =>
      exact calling_not_crashed (Scripted.checked_not_crashed (by simp [Reply.ok]))
        (fun _ _ => by simp [refusedBy]) (fun _ => by simp)

theorem adds_rows_of_crashed {s : Session Scripted} {c : SessionCall}
    (h : (c.perform s).outcome = .crashed) : ∃ rows, c = .short (.addConstraints rows) := by
  by_contra hc
  exact perform_not_crashed_of_ne (not_exists.mp hc) h

/-- Only a kept solution with fewer values than there are columns can cut a call short. -/
theorem perform_not_crashed {s : Session Scripted}
    (h : s.engine.solution.valueValid = true → s.numCols ≤ s.engine.solution.colValue.length)
    (c : SessionCall) : (c.perform s).outcome ≠ .crashed := by
  intro hcrashed
  obtain ⟨rows,rfl⟩ := adds_rows_of_crashed hcrashed
  simp only [SessionCall.perform, ShortCall.perform, Answer.mapValue_crashed] at hcrashed
  exact addConstraints_not_crashed h hcrashed

theorem addRows_crashed {e : Scripted} {batch : RowBatch Float}
    (h : (e.addRows batch).outcome = .crashed) : (e.addRows batch).engine.info = e.info ∧
      ∃ activities, (e.addRows batch).engine.solution = e.extend activities := by
  revert h
  refine Scripted.checked_cases (P := fun r => r.outcome = .crashed →
    r.engine.info = e.info ∧ ∃ activities, r.engine.solution = e.extend activities)
    (fun _ hfailed => by cases hfailed) (fun _ => ?_)
  dsimp only
  split
  · split
    · intro hok
      cases hok
    · exact fun _ => ⟨rfl,_,rfl⟩
  · intro hok
    cases hok

/-- A call that is cut short leaves alone what is remembered, and the engine has its solution with
the activities of some of the rows. -/
theorem perform_crashed {s : Session Scripted} {c : SessionCall}
    (h : (c.perform s).outcome = .crashed) : ∃ e : Scripted, e.info = s.engine.info ∧
      (∃ activities, e.solution = s.engine.extend activities) ∧
      (c.perform s).session = { s with engine := e } := by
  obtain ⟨rows,rfl⟩ := adds_rows_of_crashed h
  simp only [SessionCall.perform, ShortCall.perform, Answer.mapValue_crashed,
    Answer.mapValue_session] at h ⊢
  unfold addConstraints at h ⊢
  cases hbatch : RowBatch.ofConstraints rows s.numCols with
  | error fault => simp [hbatch] at h
  | ok batch =>
    simp only [hbatch] at h ⊢
    by_cases hsize : batch.size = 0
    · simp [hsize] at h
    · rw [if_neg hsize] at h ⊢
      revert h
      refine calling_cases (P := fun outcome t => outcome = .crashed → ∃ e : Scripted,
        e.info = s.engine.info ∧ (∃ activities, e.solution = s.engine.extend activities) ∧
        t = { s with engine := e })
        (fun _ hok => by cases hok) (fun _ _ hfailed => by cases hfailed) (fun hreply _ => ?_)
      obtain ⟨hinfo,hsolution⟩ := addRows_crashed hreply
      exact ⟨_,hinfo,hsolution,rfl⟩

end Session
end SolverSession
