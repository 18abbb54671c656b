import SolverSession.Proofs.Effects

/-!
# Runs over the scripted engine

A run opens a session over a fresh engine and then makes calls, in any order, with any settings of
the engine between them.
-/
namespace SolverSession

namespace Session

theorem create_session {σ : Type} [Engine σ] (engine : σ) (config : SessionConfig) :
    (create engine config).session =
      (setOptions ⟨engine,.notSet,Engine.numCols engine,Engine.numRows engine,Option.none⟩
        config.settings).session := by
  unfold create
  dsimp only
  split <;> rfl

/-- Sessions just opened over a fresh engine that was adjusted before. -/
inductive Opened : Session Scripted → Prop where
  | create {settings : List Scripted.Setting} {config : SessionConfig}
      (h : (Session.create (settings.foldl Scripted.adjust .fresh) config).outcome = .ok ()) :
      Opened (Session.create (settings.foldl Scripted.adjust .fresh) config).session

theorem Opened.reports {s : Session Scripted} (h : Opened s) :
    ∃ e, Scripted.fresh.SameReports e ∧ s = ⟨e,.notSet,0,0,Option.none⟩ := by
  cases h with
  | @create settings config _ =>
    have hfresh := Scripted.sameReports_adjustAll .fresh settings
    obtain ⟨e,he,hsession⟩ := (setOptions_advance _ config.settings).of_effect_none
    rw [create_session, hsession]
    refine ⟨e,hfresh.trans he,?_⟩
    exact congrArg₂ (fun numCols numRows => (⟨e,.notSet,numCols,numRows,Option.none⟩ :
      Session Scripted)) hfresh.numCols hfresh.numRows

/-- The call is not cut short. -/
def Finishes (s : Session Scripted) (c : SessionCall) : Prop := (c.perform s).outcome ≠ .crashed

end Session

/-- A call with the way it ended. -/
structure CallRecord where
  call : SessionCall
  outcome : Outcome Failure Returned

def CallRecord.effect (r : CallRecord) : Effect := r.call.effect r.outcome

/-- Runs from a session: any calls that are `allowed`, with any settings of the engine between them.
The records are in order, the latest first. -/
inductive Run (allowed : Session Scripted → SessionCall → Prop) (first : Session Scripted) :
    List CallRecord → Session Scripted → Prop where
  | start : Run allowed first [] first
  | adjust {records : List CallRecord} {s : Session Scripted} (x : Scripted.Setting)
      (h : Run allowed first records s) :
      Run allowed first records { s with engine := s.engine.adjust x }
  | call {records : List CallRecord} {s : Session Scripted} (c : SessionCall) (hc : allowed s c)
      (h : Run allowed first records s) :
      Run allowed first (⟨c,(c.perform s).outcome⟩ :: records) (c.perform s).session

end SolverSession
