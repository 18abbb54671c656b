import SolverSession.Background

/-!
# Calls of a session

All calls of a session as one type, and how each of them ends over an arbitrary engine. The cause of
a failure tells which part of the call was reached: bad data are found before the engine is asked
anything, and a call the engine refuses leaves what is remembered alone unless it was a load.
-/
namespace SolverSession

variable {σ β γ : Type}

namespace Answer

@[simp] theorem after_outcome (earlier : List Event) (a : Answer σ β) :
    (a.after earlier).outcome = a.outcome := rfl

@[simp] theorem after_session (earlier : List Event) (a : Answer σ β) :
    (a.after earlier).session = a.session := rfl

@[simp] theorem mapValue_session (f : β → γ) (a : Answer σ β) :
    (a.mapValue f).session = a.session := rfl

@[simp] theorem mapValue_failed {f : β → γ} {a : Answer σ β} {cause : Failure} :
    (a.mapValue f).outcome = .failed cause ↔ a.outcome = .failed cause := by
  cases h : a.outcome <;> simp [mapValue, h]

@[simp] theorem mapValue_crashed {f : β → γ} {a : Answer σ β} :
    (a.mapValue f).outcome = .crashed ↔ a.outcome = .crashed := by
  cases h : a.outcome <;> simp [mapValue, h]

/-- The call did not happen as far as session and engine are concerned. -/
structure Untouched (s : Session σ) (a : Answer σ β) : Prop where
  session : a.session = s
  calls : calls a.events = []

theorem Untouched.mapValue {s : Session σ} {a : Answer σ β} (h : a.Untouched s) (f : β → γ) :
    (a.mapValue f).Untouched s := ⟨h.session,h.calls⟩

end Answer

inductive Returned where
  | nothing
  | status (status : ModelStatus)
  | value (value : OptionValue)

/-- A call of a session. -/
inductive SessionCall where
  | long (c : LongCall)
  | short (c : ShortCall)

def SessionCall.perform [Engine σ] (s : Session σ) : SessionCall → Answer σ Returned
  | long c => (c.perform s).mapValue fun status => status.elim .nothing .status
  | short c => (c.perform s).mapValue fun value => value.elim .nothing .value

/-- The failure is found in the data, without the engine. -/
def Failure.IsData : Failure → Prop
  | invalidModel _ | invalidStart _ => True
  | _ => False

namespace Session

@[simp] theorem succeed_outcome (s : Session σ) (x : β) (events : List Event) :
    (s.succeed x events).outcome = .ok x := rfl

@[simp] theorem fail_outcome (s : Session σ) (cause : Failure) (events : List Event) :
    (s.fail cause events : Answer σ β).outcome = .failed cause := rfl

theorem succeed_untouched (s : Session σ) (x : β) : (s.succeed x []).Untouched s := ⟨rfl,rfl⟩

theorem fail_untouched (s : Session σ) (cause : Failure) :
    (s.fail cause [] : Answer σ β).Untouched s := ⟨rfl,rfl⟩

/-- Both remember the same; their engines may differ. -/
structure SameRecord (s t : Session σ) : Prop where
  status : t.status = s.status
  numCols : t.numCols = s.numCols
  numRows : t.numRows = s.numRows
  cached : t.cached = s.cached

theorem sameRecord_refl (s : Session σ) : SameRecord s s := ⟨rfl,rfl,rfl,rfl⟩

theorem sameRecord_engine (s : Session σ) (engine : σ) :
    SameRecord s { s with engine := engine } := ⟨rfl,rfl,rfl,rfl⟩

theorem SameRecord.trans {s t u : Session σ} (hst : SameRecord s t) (htu : SameRecord t u) :
    SameRecord s u :=
  ⟨htu.status.trans hst.status,htu.numCols.trans hst.numCols,htu.numRows.trans hst.numRows,
    htu.cached.trans hst.cached⟩

/-- What is remembered is what the engine says, and no solution. -/
structure FollowsEngine [Engine σ] (s : Session σ) : Prop where
  numCols : s.numCols = Engine.numCols s.engine
  numRows : s.numRows = Engine.numRows s.engine
  status : s.status = .ofCode (Engine.modelStatus s.engine)
  solution : s.solution = .empty

theorem followEngine_followsEngine [Engine σ] (s : Session σ) : s.followEngine.FollowsEngine :=
  ⟨rfl,rfl,rfl,rfl⟩

section Calling

variable {s : Session σ} {call : EngineCall} {reply : Reply σ}
  {refused : String → Session σ → Answer σ β} {returned : Session σ → Answer σ β}

theorem calling_ok (h : reply.outcome = .ok ()) :
    s.calling call reply refused returned =
      (returned { s with engine := reply.engine }).after
        (.call call :: reply.log.map .log) := by
  simp only [calling, h]

theorem calling_failed {message : String} (h : reply.outcome = .failed message) :
    s.calling call reply refused returned =
      (refused message { s with engine := reply.engine }).after
        (.call call :: reply.log.map .log) := by
  simp only [calling, h]

theorem calling_crashed (h : reply.outcome = .crashed) :
    s.calling call reply refused returned =
      (⟨.crashed,{ s with engine := reply.engine },[]⟩ : Answer σ β).after
        (.call call :: reply.log.map .log) := by
  simp only [calling, h]

/-- The three ends of an engine call, as cases of a property of outcome and session. -/
theorem calling_cases {P : Outcome Failure β → Session σ → Prop}
    (hok : reply.outcome = .ok () →
      P (returned { s with engine := reply.engine }).outcome
        (returned { s with engine := reply.engine }).session)
    (hfailed : ∀ message, reply.outcome = .failed message →
      P (refused message { s with engine := reply.engine }).outcome
        (refused message { s with engine := reply.engine }).session)
    (hcrashed : reply.outcome = .crashed → P .crashed { s with engine := reply.engine }) :
    P (s.calling call reply refused returned).outcome
      (s.calling call reply refused returned).session := by
  cases hr : reply.outcome with
  | ok x => rw [calling_ok hr]; exact hok hr
  | failed message => rw [calling_failed hr]; exact hfailed message hr
  | crashed => rw [calling_crashed hr]; exact hcrashed hr

theorem calling_not_crashed (hreply : reply.outcome ≠ .crashed)
    (hrefused : ∀ message t, (refused message t).outcome ≠ .crashed)
    (hreturned : ∀ t, (returned t).outcome ≠ .crashed) :
    (s.calling call reply refused returned).outcome ≠ .crashed :=
  calling_cases (P := fun outcome _ => outcome ≠ .crashed) (fun _ => hreturned _)
    (fun _ _ => hrefused _ _) (fun h => absurd h hreply)

/-- A failure comes from the engine's refusal or from what follows its return. -/
theorem failed_of_calling {cause : Failure}
    (h : (s.calling call reply refused returned).outcome = .failed cause) :
    (∃ message,
      (refused message { s with engine := reply.engine }).outcome = .failed cause ∧
      (s.calling call reply refused returned).session =
        (refused message { s with engine := reply.engine }).session) ∨
    (returned { s with engine := reply.engine }).outcome = .failed cause := by
  cases hr : reply.outcome with
  | ok x =>
    rw [calling_ok hr] at h
    exact .inr h
  | failed message =>
    rw [calling_failed hr] at h ⊢
    exact .inl ⟨message,h,rfl⟩
  | crashed =>
    rw [calling_crashed hr] at h
    cases h

/-- Where a return is always a success, every failure is the refusal. -/
theorem failed_of_refusedBy {method : Method} {cause : Failure}
    (hreturned : ∀ t cause, (returned t).outcome ≠ .failed cause)
    (h : (s.calling call reply (refusedBy method) returned).outcome = .failed cause) :
    (∃ message, cause = .native method message) ∧
      SameRecord s (s.calling call reply (refusedBy method) returned).session := by
  rcases failed_of_calling h with ⟨message,hout,hsession⟩ | hout
  · simp only [refusedBy, fail_outcome, Outcome.failed.injEq] at hout
    rw [hsession]
    exact ⟨⟨message,hout.symm⟩,sameRecord_engine s _⟩
  · exact absurd hout (hreturned _ _)

end Calling

/-! ## What follows a return -/

theorem conclude_session (s : Session σ) (primal : PointStatus) (options : SolveOptions) :
    (s.conclude primal options).session = s := by
  unfold conclude
  cases options.accept s.status primal <;> rfl

theorem conclude_failed {s : Session σ} {primal : PointStatus} {options : SolveOptions}
    {cause : Failure} (h : (s.conclude primal options).outcome = .failed cause) :
    cause = .nonOptimal s.status := by
  unfold conclude SolveOptions.accept at h
  split at h
  · simp at h
  · rename_i c hc
    split at hc
    · cases hc
    · simp only [Except.error.injEq, fail_outcome, Outcome.failed.injEq] at hc h
      rw [← h, ← hc]

section Refresh

variable [Engine σ] (s : Session σ)

theorem refresh_engine : s.refresh.1.engine = s.engine := by
  unfold refresh
  cases s.cached with
  | none => rfl
  | some old =>
    dsimp only
    split <;> rfl

theorem refresh_status : s.refresh.1.status = .ofCode (Engine.modelStatus s.engine) := by
  unfold refresh
  cases s.cached with
  | none => rfl
  | some old =>
    dsimp only
    split <;> rfl

theorem refresh_dims : s.refresh.1.numCols = s.numCols ∧ s.refresh.1.numRows = s.numRows := by
  unfold refresh
  cases s.cached with
  | none => exact ⟨rfl,rfl⟩
  | some old =>
    dsimp only
    split <;> exact ⟨rfl,rfl⟩

end Refresh

/-! ## Failures of each call -/

variable [Engine σ]

theorem load_failed {s : Session σ} {model : Model Float} {cause : Failure}
    (h : (s.load model).outcome = .failed cause) :
    ((∃ fault, cause = .invalidModel fault) ∧ (s.load model).Untouched s) ∨
    ((∃ message, cause = .native .passModel message) ∧
      (s.load model).session.FollowsEngine) := by
  unfold load at h ⊢
  cases hflat : model.flatten with
  | error fault =>
    simp only [hflat, fail_outcome, Outcome.failed.injEq] at h ⊢
    exact .inl ⟨⟨fault,h.symm⟩,fail_untouched s _⟩
  | ok flat =>
    simp only [hflat] at h ⊢
    rcases failed_of_calling h with ⟨message,hout,hsession⟩ | hout
    · simp only [fail_outcome, Outcome.failed.injEq] at hout
      rw [hsession]
      exact .inr ⟨⟨message,hout.symm⟩,followEngine_followsEngine _⟩
    · simp at hout

theorem loadFile_failed {s : Session σ} {path : String} {cause : Failure}
    (h : (s.loadFile path).outcome = .failed cause) :
    (∃ message, cause = .unreadable path message) ∧ (s.loadFile path).session.FollowsEngine := by
  unfold loadFile at h ⊢
  rcases failed_of_calling h with ⟨message,hout,hsession⟩ | hout
  · simp only [fail_outcome, Outcome.failed.injEq] at hout
    rw [hsession]
    exact ⟨⟨message,hout.symm⟩,followEngine_followsEngine _⟩
  · simp at hout

theorem addConstraints_failed {s : Session σ} {rows : List (Constraint Float)} {cause : Failure}
    (h : (s.addConstraints rows).outcome = .failed cause) :
    ((∃ fault, cause = .invalidModel fault) ∧ (s.addConstraints rows).Untouched s) ∨
    ((∃ message, cause = .native .addRows message) ∧
      SameRecord s (s.addConstraints rows).session) := by
  unfold addConstraints at h ⊢
  cases hbatch : RowBatch.ofConstraints rows s.numCols with
  | error fault =>
    simp only [hbatch, fail_outcome, Outcome.failed.injEq] at h ⊢
    exact .inl ⟨⟨fault,h.symm⟩,fail_untouched s _⟩
  | ok batch =>
    simp only [hbatch] at h ⊢
    split at h
    · simp at h
    · rename_i hsize
      rw [if_neg hsize]
      exact .inr (failed_of_refusedBy (fun _ _ => by simp) h)

theorem addVariables_failed {s : Session σ} {columns : List (Column Float)} {cause : Failure}
    (h : (s.addVariables columns).outcome = .failed cause) :
    ((∃ fault, cause = .invalidModel fault) ∧ (s.addVariables columns).Untouched s) ∨
    ((∃ message, cause = .native .addCols message) ∧
      SameRecord s (s.addVariables columns).session) := by
  unfold addVariables at h ⊢
  cases hbatch : ColumnBatch.ofColumns columns s.numRows with
  | error fault =>
    simp only [hbatch, fail_outcome, Outcome.failed.injEq] at h ⊢
    exact .inl ⟨⟨fault,h.symm⟩,fail_untouched s _⟩
  | ok batch =>
    simp only [hbatch] at h ⊢
    split at h
    · simp at h
    · rename_i hsize
      rw [if_neg hsize]
      exact .inr (failed_of_refusedBy (fun _ _ => by simp) h)

theorem warmStart_failed {s : Session σ} {start : WarmStart} {cause : Failure}
    (h : (s.warmStart start).outcome = .failed cause) :
    ((∃ fault, cause = .invalidStart fault) ∧ (s.warmStart start).Untouched s) ∨
    ((∃ message, cause = .native .setSolution message) ∧
      SameRecord s (s.warmStart start).session) := by
  unfold warmStart at h ⊢
  cases hfault : start.fault? s.numCols s.numRows with
  | some fault =>
    simp only [hfault, fail_outcome, Outcome.failed.injEq] at h ⊢
    exact .inl ⟨⟨fault,h.symm⟩,fail_untouched s _⟩
  | none =>
    simp only [hfault] at h ⊢
    exact .inr (failed_of_refusedBy (fun _ _ => by simp) h)

theorem solve_failed {s : Session σ} {options : SolveOptions} {cause : Failure}
    (h : (s.solve options).outcome = .failed cause) :
    (∃ status, cause = .nonOptimal status) ∨
    ((∃ message, cause = .native .run message) ∧ SameRecord s (s.solve options).session) := by
  unfold solve at h ⊢
  rcases failed_of_calling h with ⟨message,hout,hsession⟩ | hout
  · simp only [refusedBy, fail_outcome, Outcome.failed.injEq] at hout
    rw [hsession]
    exact .inr ⟨⟨message,hout.symm⟩,sameRecord_engine s _⟩
  · exact .inl ⟨_,conclude_failed hout⟩

theorem reset_failed {s : Session σ} {cause : Failure} (h : s.reset.outcome = .failed cause) :
    (∃ message, cause = .native .clearSolver message) ∧ SameRecord s s.reset.session :=
  failed_of_refusedBy (fun _ _ => by simp) h

/-! ## Options -/

theorem undoOptions_not_failed (s : Session σ) (values : List (String × OptionValue))
    (cause : Failure) : (s.undoOptions values).outcome ≠ .failed cause := by
  induction values generalizing s with
  | nil => simp [undoOptions]
  | cons entry rest ih =>
    exact calling_cases (P := fun outcome _ => outcome ≠ .failed cause)
      (fun _ => ih _) (fun _ _ => ih _) (fun _ => by simp)

section Keeps

variable {P : Session σ → Prop}
  (hset : ∀ t name value, P t →
    P { t with engine := (Engine.setOption name value t.engine).engine })
include hset

theorem undoOptions_keeps {s : Session σ} (hs : P s) (values : List (String × OptionValue)) :
    P (s.undoOptions values).session := by
  induction values generalizing s with
  | nil => exact hs
  | cons entry rest ih =>
    have hnext := hset s entry.1 entry.2 hs
    exact calling_cases (P := fun _ t => P t) (fun _ => ih hnext) (fun _ _ => ih hnext)
      (fun _ => hnext)

theorem applyOptions_keeps {s : Session σ} (hs : P s) (applied : List (String × OptionValue))
    (todo : List ((String × OptionValue) × OptionValue)) :
    P (s.applyOptions applied todo).session := by
  induction todo generalizing s applied with
  | nil => exact hs
  | cons entry rest ih =>
    have hnext := hset s entry.1.1 entry.1.2 hs
    refine calling_cases (P := fun _ t => P t) (fun _ => ih hnext _) (fun message _ => ?_)
      (fun _ => hnext)
    have hundo := undoOptions_keeps hset hnext applied
    dsimp only
    split <;> exact hundo

theorem setOptions_keeps {s : Session σ} (hs : P s) (options : List (String × OptionValue)) :
    P (s.setOptions options).session := by
  unfold setOptions
  split
  · exact hs
  · split
    · exact hs
    · exact applyOptions_keeps hset hs _ _

end Keeps

theorem applyOptions_failed {s : Session σ} {applied : List (String × OptionValue)}
    {todo : List ((String × OptionValue) × OptionValue)} {cause : Failure}
    (h : (s.applyOptions applied todo).outcome = .failed cause) :
    ∃ message, cause = .native .setOption message := by
  induction todo generalizing s applied with
  | nil => simp [applyOptions] at h
  | cons entry rest ih =>
    rcases failed_of_calling h with ⟨message,hout,-⟩ | hout
    · dsimp only at hout
      split at hout
      · simp only [Answer.after_outcome, fail_outcome, Outcome.failed.injEq] at hout
        exact ⟨message,hout.symm⟩
      · exact absurd hout (undoOptions_not_failed _ applied cause)
    · exact ih hout

theorem checkOptions_error {engine : σ} {options : List (String × OptionValue)} {cause : Failure}
    (h : (checkOptions engine options).1 = .error cause) :
    ∃ message, cause = .native .setOption message := by
  induction options with
  | nil => simp [checkOptions] at h
  | cons entry rest ih =>
    obtain ⟨name,value⟩ := entry
    simp only [checkOptions] at h
    split at h
    · exact ⟨_,(Except.error.inj h).symm⟩
    · split at h
      · exact ⟨_,(Except.error.inj h).symm⟩
      · cases hrest : (checkOptions engine rest).1 with
        | ok checked => simp [hrest, Except.map] at h
        | error cause' =>
          simp only [hrest, Except.map, Except.error.injEq] at h
          exact ih (h ▸ hrest)

theorem currentValues_error {engine : σ} {options : List (String × OptionValue)}
    {cause : Failure} (h : (currentValues engine options).1 = .error cause) :
    ∃ message, cause = .native .getOption message := by
  induction options with
  | nil => simp [currentValues] at h
  | cons entry rest ih =>
    obtain ⟨name,value⟩ := entry
    simp only [currentValues] at h
    split at h
    · exact ⟨_,(Except.error.inj h).symm⟩
    · cases hrest : (currentValues engine rest).1 with
      | ok values => simp [hrest, Except.map] at h
      | error cause' =>
        simp only [hrest, Except.map, Except.error.injEq] at h
        exact ih (h ▸ hrest)

theorem setOptions_failed {s : Session σ} {options : List (String × OptionValue)}
    {cause : Failure} (h : (s.setOptions options).outcome = .failed cause) :
    (∃ method message, cause = .native method message) ∧
      SameRecord s (s.setOptions options).session := by
  refine ⟨?_,setOptions_keeps (fun t _ _ ht => ht.trans (sameRecord_engine t _))
    (sameRecord_refl s) options⟩
  unfold setOptions at h
  split at h
  case h_1 cause' events hcheck =>
    rw [fail_outcome, Outcome.failed.injEq] at h
    exact ⟨.setOption,checkOptions_error (h ▸ congrArg Prod.fst hcheck)⟩
  case h_2 checked events hcheck =>
    split at h
    case h_1 cause' more hvalues =>
      rw [fail_outcome, Outcome.failed.injEq] at h
      exact ⟨.getOption,currentValues_error (h ▸ congrArg Prod.fst hvalues)⟩
    case h_2 values more hvalues => exact ⟨.setOption,applyOptions_failed h⟩

theorem option_failed {s : Session σ} {name : String} {cause : Failure}
    (h : (s.option name).outcome = .failed cause) :
    (∃ message, cause = .native .getOption message) ∧ (s.option name).session = s := by
  unfold option at h ⊢
  cases hget : Engine.getOption name s.engine with
  | ok value => simp [hget] at h
  | error message =>
    simp only [hget, fail_outcome, Outcome.failed.injEq] at h
    exact ⟨⟨message,h.symm⟩,rfl⟩

end Session
end SolverSession
