import SolverSession.Proofs.Calls

/-!
# Engines that cannot be told apart

Two engines may differ in what no call of a session brings to light. `Engine.Bisimulation` relates
such engines, of one type or of two: every call finds them alike and leaves them alike. Sessions
that remember the same over related engines then answer every call of theirs alike, which is proved
once for each call and holds of any sequence of calls.
-/
namespace SolverSession

variable {σ τ β γ : Type}

structure Reply.Alike (R : σ → τ → Prop) (r : Reply σ) (q : Reply τ) : Prop where
  outcome : r.outcome = q.outcome
  engine : R r.engine q.engine
  log : r.log = q.log

/-- Related engines reply alike to every call and answer every question alike. -/
structure Engine.Bisimulation [Engine σ] [Engine τ] (R : σ → τ → Prop) : Prop where
  passModel {e : σ} {f : τ} (h : R e f) (model : FlatModel Float) :
    (Engine.passModel model e).Alike R (Engine.passModel model f)
  readModel {e : σ} {f : τ} (h : R e f) (path : String) :
    (Engine.readModel path e).Alike R (Engine.readModel path f)
  writeModel {e : σ} {f : τ} (h : R e f) (path : String) :
    (Engine.writeModel path e).Alike R (Engine.writeModel path f)
  writeSolution {e : σ} {f : τ} (h : R e f) (path : String) (style : ReportStyle) :
    (Engine.writeSolution path style e).Alike R (Engine.writeSolution path style f)
  addRows {e : σ} {f : τ} (h : R e f) (batch : RowBatch Float) :
    (Engine.addRows batch e).Alike R (Engine.addRows batch f)
  addCols {e : σ} {f : τ} (h : R e f) (batch : ColumnBatch Float) :
    (Engine.addCols batch e).Alike R (Engine.addCols batch f)
  run {e : σ} {f : τ} (h : R e f) : (Engine.run e).Alike R (Engine.run f)
  setSolution {e : σ} {f : τ} (h : R e f) (start : WarmStart) :
    (Engine.setSolution start e).Alike R (Engine.setSolution start f)
  setOption {e : σ} {f : τ} (h : R e f) (name : String) (value : OptionValue) :
    (Engine.setOption name value e).Alike R (Engine.setOption name value f)
  clearSolver {e : σ} {f : τ} (h : R e f) :
    (Engine.clearSolver e).Alike R (Engine.clearSolver f)
  optionKind {e : σ} {f : τ} (h : R e f) (name : String) :
    Engine.optionKind name e = Engine.optionKind name f
  getOption {e : σ} {f : τ} (h : R e f) (name : String) :
    Engine.getOption name e = Engine.getOption name f
  modelStatus {e : σ} {f : τ} (h : R e f) : Engine.modelStatus e = Engine.modelStatus f
  info {e : σ} {f : τ} (h : R e f) : Engine.info e = Engine.info f
  solution {e : σ} {f : τ} (h : R e f) : Engine.solution e = Engine.solution f
  reading {e : σ} {f : τ} (h : R e f) : Engine.reading e = Engine.reading f
  numCols {e : σ} {f : τ} (h : R e f) : Engine.numCols e = Engine.numCols f
  numRows {e : σ} {f : τ} (h : R e f) : Engine.numRows e = Engine.numRows f

/-- Both remember the same, over related engines. -/
structure Session.Alike (R : σ → τ → Prop) (s : Session σ) (t : Session τ) : Prop where
  engine : R s.engine t.engine
  status : s.status = t.status
  numCols : s.numCols = t.numCols
  numRows : s.numRows = t.numRows
  cached : s.cached = t.cached

structure Answer.Alike (R : σ → τ → Prop) (a : Answer σ β) (b : Answer τ β) : Prop where
  outcome : a.outcome = b.outcome
  session : a.session.Alike R b.session
  events : a.events = b.events

structure View where
  status : ModelStatus
  pointStatus : PointStatus
  info : Diagnostics
  solution : Solution
  numCols : Nat
  numRows : Nat
  option : String → Outcome Failure OptionValue

def Session.view [Engine σ] (s : Session σ) : View where
  status := s.status
  pointStatus := s.pointStatus
  info := s.info
  solution := s.solution
  numCols := s.numCols
  numRows := s.numRows
  option name := (s.option name).outcome

section Answers

variable {R : σ → τ → Prop} {s : Session σ} {t : Session τ} {a : Answer σ β} {b : Answer τ β}

theorem Answer.Alike.after (h : a.Alike R b) (earlier : List Event) :
    (a.after earlier).Alike R (b.after earlier) :=
  ⟨h.outcome,h.session,congrArg (earlier ++ ·) h.events⟩

theorem Answer.Alike.mapValue (h : a.Alike R b) (f : β → γ) :
    (a.mapValue f).Alike R (b.mapValue f) := by
  refine ⟨?_,h.session,h.events⟩
  unfold Answer.mapValue
  rw [h.outcome]

namespace Session

theorem Alike.succeed (h : s.Alike R t) (x : β) (events : List Event) :
    (s.succeed x events).Alike R (t.succeed x events) := ⟨rfl,h,rfl⟩

theorem Alike.fail (h : s.Alike R t) (cause : Failure) (events : List Event) :
    (s.fail cause events : Answer σ β).Alike R (t.fail cause events) := ⟨rfl,h,rfl⟩

theorem Alike.loaded (h : s.Alike R t) (numCols numRows : Nat) :
    (s.loaded numCols numRows).Alike R (t.loaded numCols numRows) := ⟨h.engine,rfl,rfl,rfl,rfl⟩

theorem Alike.refusedBy (h : s.Alike R t) (method : Method) (message : String) :
    (s.refusedBy method message : Answer σ β).Alike R (t.refusedBy method message) := h.fail _ _

/-- An engine call: replies that are alike are followed by answers that are alike. -/
theorem Alike.calling (h : s.Alike R t) {r : Reply σ} {q : Reply τ} (hr : r.Alike R q)
    (call : EngineCall) {refused : String → Session σ → Answer σ β}
    {refused' : String → Session τ → Answer τ β} {returned : Session σ → Answer σ β}
    {returned' : Session τ → Answer τ β}
    (hrefused : ∀ message {u : Session σ} {v : Session τ}, u.Alike R v →
      (refused message u).Alike R (refused' message v))
    (hreturned : ∀ {u : Session σ} {v : Session τ}, u.Alike R v →
      (returned u).Alike R (returned' v)) :
    (s.calling call r refused returned).Alike R (t.calling call q refused' returned') := by
  have hnext : Alike R { s with engine := r.engine } { t with engine := q.engine } :=
    ⟨hr.engine,h.status,h.numCols,h.numRows,h.cached⟩
  cases hq : q.outcome with
  | ok x =>
    rw [calling_ok (hr.outcome.trans hq), calling_ok hq, hr.log]
    exact (hreturned hnext).after _
  | failed message =>
    rw [calling_failed (hr.outcome.trans hq), calling_failed hq, hr.log]
    exact (hrefused message hnext).after _
  | crashed =>
    rw [calling_crashed (hr.outcome.trans hq), calling_crashed hq, hr.log]
    have hcut : Answer.Alike R (⟨.crashed,{ s with engine := r.engine },[]⟩ : Answer σ β)
        ⟨.crashed,{ t with engine := q.engine },[]⟩ := ⟨rfl,hnext,rfl⟩
    exact hcut.after _

end Session

end Answers

namespace Session

variable [Engine σ] [Engine τ] {R : σ → τ → Prop} (hR : Engine.Bisimulation R)
  {s : Session σ} {t : Session τ}
include hR

theorem Alike.followEngine (h : s.Alike R t) : s.followEngine.Alike R t.followEngine :=
  ⟨h.engine,congrArg ModelStatus.ofCode (hR.modelStatus h.engine),hR.numCols h.engine,
    hR.numRows h.engine,rfl⟩

theorem Alike.refresh (h : s.Alike R t) :
    s.refresh.1.Alike R t.refresh.1 ∧ s.refresh.2 = t.refresh.2 := by
  have hstatus := congrArg ModelStatus.ofCode (hR.modelStatus h.engine)
  unfold Session.refresh
  rw [h.cached]
  cases t.cached with
  | none => exact ⟨⟨h.engine,hstatus,h.numCols,h.numRows,rfl⟩,rfl⟩
  | some old =>
    simp only [hR.solution h.engine, hR.reading h.engine]
    split
    · exact ⟨⟨h.engine,hstatus,h.numCols,h.numRows,rfl⟩,rfl⟩
    · exact ⟨⟨h.engine,hstatus,h.numCols,h.numRows,rfl⟩,rfl⟩

theorem Alike.load (h : s.Alike R t) (model : Model Float) :
    (s.load model).Alike R (t.load model) := by
  unfold Session.load
  cases model.flatten with
  | error fault => exact h.fail _ _
  | ok flat =>
    refine h.calling (hR.passModel h.engine flat) _ (fun message u v huv => ?_)
      (fun huv => ?_)
    · have hnext := huv.followEngine hR
      dsimp only [loadRejected]
      rw [hnext.numCols, hnext.numRows]
      exact hnext.fail _ _
    · exact (huv.loaded _ _).succeed _ _

theorem Alike.loadFile (h : s.Alike R t) (path : String) :
    (s.loadFile path).Alike R (t.loadFile path) := by
  refine h.calling (hR.readModel h.engine path) _ (fun message u v huv => ?_)
    (fun {u v} huv => ?_)
  · have hnext := huv.followEngine hR
    dsimp only [loadRejected]
    rw [hnext.numCols, hnext.numRows]
    exact hnext.fail _ _
  · rw [hR.numCols huv.engine, hR.numRows huv.engine]
    exact (huv.loaded _ _).succeed _ _

theorem Alike.addConstraints (h : s.Alike R t) (rows : List (Constraint Float)) :
    (s.addConstraints rows).Alike R (t.addConstraints rows) := by
  unfold Session.addConstraints
  rw [h.numCols]
  cases RowBatch.ofConstraints rows t.numCols with
  | error fault => exact h.fail _ _
  | ok batch =>
    dsimp only
    split
    · exact h.succeed _ _
    · refine h.calling (hR.addRows h.engine batch) _ (fun message _ _ huv => huv.refusedBy _ _)
        (fun {u v} huv => ?_)
      have hgrown : Alike R { u with numRows := u.numRows+batch.size }
          { v with numRows := v.numRows+batch.size } :=
        ⟨huv.engine,huv.status,huv.numCols,congrArg (·+batch.size) huv.numRows,huv.cached⟩
      obtain ⟨hnext,hdropped⟩ := hgrown.refresh hR
      rw [hdropped, hnext.numRows]
      exact hnext.succeed _ _

theorem Alike.addVariables (h : s.Alike R t) (columns : List (Column Float)) :
    (s.addVariables columns).Alike R (t.addVariables columns) := by
  unfold Session.addVariables
  rw [h.numRows]
  cases ColumnBatch.ofColumns columns t.numRows with
  | error fault => exact h.fail _ _
  | ok batch =>
    dsimp only
    split
    · exact h.succeed _ _
    · refine h.calling (hR.addCols h.engine batch) _ (fun message _ _ huv => huv.refusedBy _ _)
        (fun {u v} huv => ?_)
      have hgrown : Alike R { u with numCols := u.numCols+batch.size }
          { v with numCols := v.numCols+batch.size } :=
        ⟨huv.engine,huv.status,congrArg (·+batch.size) huv.numCols,huv.numRows,huv.cached⟩
      obtain ⟨hnext,hdropped⟩ := hgrown.refresh hR
      rw [hdropped, hnext.numCols]
      exact hnext.succeed _ _

theorem Alike.warmStart (h : s.Alike R t) (start : WarmStart) :
    (s.warmStart start).Alike R (t.warmStart start) := by
  unfold Session.warmStart
  rw [h.numCols, h.numRows]
  cases start.fault? t.numCols t.numRows with
  | some fault => exact h.fail _ _
  | none =>
    refine h.calling (hR.setSolution h.engine start) _ (fun message _ _ huv => huv.refusedBy _ _)
      (fun {u v} huv => ?_)
    have hnext : Alike R
        { u with cached := some ((u.cached.getD .empty).applyStart start) }
        { v with cached := some ((v.cached.getD .empty).applyStart start) } := by
      rw [huv.cached]
      exact ⟨huv.engine,huv.status,huv.numCols,huv.numRows,rfl⟩
    exact hnext.succeed _ _

theorem Alike.solve (h : s.Alike R t) (options : SolveOptions) :
    (s.solve options).Alike R (t.solve options) := by
  refine h.calling (hR.run h.engine) _ (fun message _ _ huv => huv.refusedBy _ _)
    (fun {u v} huv => ?_)
  have hnext : u.solved.Alike R v.solved :=
    ⟨huv.engine,congrArg ModelStatus.ofCode (hR.modelStatus huv.engine),huv.numCols,huv.numRows,
      congrArg (some <| Solution.ofEngine ·) (hR.solution huv.engine)⟩
  dsimp only
  rw [hR.info hnext.engine, hR.reading hnext.engine, hnext.status]
  refine Answer.Alike.after ?_ _
  unfold conclude
  rw [hnext.status]
  split
  · exact hnext.succeed _ _
  · exact hnext.fail _ _

theorem checkOptions_eq {e : σ} {f : τ} (h : R e f) (options : List (String × OptionValue)) :
    checkOptions e options = checkOptions f options := by
  induction options with
  | nil => rfl
  | cons entry rest ih => simp only [checkOptions, hR.optionKind h, ih]

theorem currentValues_eq {e : σ} {f : τ} (h : R e f) (options : List (String × OptionValue)) :
    currentValues e options = currentValues f options := by
  induction options with
  | nil => rfl
  | cons entry rest ih => simp only [currentValues, hR.getOption h, ih]

theorem Alike.undoOptions (h : s.Alike R t) (values : List (String × OptionValue)) :
    (s.undoOptions values).Alike R (t.undoOptions values) := by
  induction values generalizing s t with
  | nil => exact h.succeed _ _
  | cons entry rest ih =>
    exact h.calling (hR.setOption h.engine entry.1 entry.2) _
      (fun message _ _ huv => (ih huv).after _) (fun huv => ih huv)

theorem Alike.applyOptions (h : s.Alike R t) (applied : List (String × OptionValue))
    (todo : List ((String × OptionValue) × OptionValue)) :
    (s.applyOptions applied todo).Alike R (t.applyOptions applied todo) := by
  induction todo generalizing s t applied with
  | nil => exact h.succeed _ _
  | cons entry rest ih =>
    refine h.calling (hR.setOption h.engine entry.1.1 entry.1.2) _
      (fun message u v huv => ?_) (fun huv => ih huv _)
    -- Both undo what they set, and take the same branch on how that ended.
    have hundo := huv.undoOptions hR applied
    dsimp only
    rw [hundo.outcome]
    split
    · rw [hundo.events]
      exact (hundo.session.fail _ _).after _
    · exact hundo

theorem Alike.setOptions (h : s.Alike R t) (options : List (String × OptionValue)) :
    (s.setOptions options).Alike R (t.setOptions options) := by
  unfold Session.setOptions
  rw [checkOptions_eq hR h.engine]
  split
  · exact h.fail _ _
  · rw [currentValues_eq hR h.engine]
    split
    · exact h.fail _ _
    · exact (h.applyOptions hR _ _).after _

theorem Alike.option (h : s.Alike R t) (name : String) :
    (s.option name).Alike R (t.option name) := by
  unfold Session.option
  rw [hR.getOption h.engine]
  split
  · exact h.fail _ _
  · exact h.succeed _ _

theorem Alike.reset (h : s.Alike R t) : s.reset.Alike R t.reset := by
  refine h.calling (hR.clearSolver h.engine) _ (fun message _ _ huv => huv.refusedBy _ _)
    (fun {u v} huv => ?_)
  rw [hR.modelStatus huv.engine]
  have hnext : ∀ status, Alike R { u with cached := none, status := status }
      { v with cached := none, status := status } :=
    fun _ => ⟨huv.engine,rfl,huv.numCols,huv.numRows,rfl⟩
  exact (hnext _).succeed _ _

/-- Sessions that are alike answer every call alike. -/
theorem Alike.perform (h : s.Alike R t) (c : SessionCall) :
    (c.perform s).Alike R (c.perform t) := by
  cases c with
  | long c =>
    refine Answer.Alike.mapValue ?_ _
    cases c with
    | load model => exact (h.load hR model).mapValue _
    | loadFile path => exact (h.loadFile hR path).mapValue _
    | solve options => exact (h.solve hR options).mapValue _
    | writeModel path =>
      refine Answer.Alike.mapValue ?_ _
      exact h.calling (hR.writeModel h.engine path) _ (fun message _ _ huv => huv.refusedBy _ _)
        (fun huv => huv.succeed _ _)
    | writeSolution path style =>
      refine Answer.Alike.mapValue ?_ _
      exact h.calling (hR.writeSolution h.engine path style) _
        (fun message _ _ huv => huv.refusedBy _ _) (fun huv => huv.succeed _ _)
  | short c =>
    refine Answer.Alike.mapValue ?_ _
    cases c with
    | addConstraints rows => exact (h.addConstraints hR rows).mapValue _
    | addVariables columns => exact (h.addVariables hR columns).mapValue _
    | warmStart start => exact (h.warmStart hR start).mapValue _
    | setOptions options => exact (h.setOptions hR options).mapValue _
    | option name => exact (h.option hR name).mapValue _
    | reset => exact (h.reset hR).mapValue _

theorem Alike.view (h : s.Alike R t) : s.view = t.view := by
  have hinfo := hR.info h.engine
  have hpoint : s.pointStatus = t.pointStatus := by
    unfold pointStatus
    rw [h.status, hinfo]
  have hsolution : s.solution = t.solution := congrArg (·.getD .empty) h.cached
  have hoption : (fun name => (s.option name).outcome) = fun name => (t.option name).outcome :=
    funext fun name => (h.option hR name).outcome
  simp only [Session.view, h.status, hpoint, Session.info, hinfo, hsolution, h.numCols, h.numRows,
    hoption]

end Session
end SolverSession
