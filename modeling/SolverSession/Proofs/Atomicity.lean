import Mathlib.Tactic.Push
import SolverSession.Engine.Scripted
import SolverSession.Proofs.Calls

/-!
# Failures change nothing by halves

For every engine: bad data leave session and engine as they were, a refused call leaves what is
remembered, and only a refused load makes the session follow the engine. Setting options is no
exception, however far it got.
-/
namespace SolverSession

variable {σ β : Type}

namespace Session

variable [Engine σ]

/-- How a call may fail: what the cause says about the call, and what is left of the session. -/
inductive FailsBy (s : Session σ) : SessionCall → Failure → Answer σ Returned → Prop where
  | data {c : SessionCall} {cause : Failure} {a : Answer σ Returned} (hcause : cause.IsData)
      (ha : a.Untouched s) : FailsBy s c cause a
  | refusedLoad {model : Model Float} {method : Method} {message : String}
      {a : Answer σ Returned} (ha : a.session.FollowsEngine) :
      FailsBy s (.long (.load model)) (.native method message) a
  | unreadable {path path' message : String} {a : Answer σ Returned}
      (ha : a.session.FollowsEngine) :
      FailsBy s (.long (.loadFile path)) (.unreadable path' message) a
  | refused {c : SessionCall} {method : Method} {message : String} {a : Answer σ Returned}
      (hc : ∀ model, c ≠ .long (.load model)) (ha : SameRecord s a.session) :
      FailsBy s c (.native method message) a
  | nonOptimal {options : SolveOptions} {status : ModelStatus} {a : Answer σ Returned} :
      FailsBy s (.long (.solve options)) (.nonOptimal status) a

theorem perform_failed {s : Session σ} {c : SessionCall} {cause : Failure}
    (h : (c.perform s).outcome = .failed cause) : FailsBy s c cause (c.perform s) := by
  cases c with
  | long c =>
    cases c <;> simp only [SessionCall.perform, LongCall.perform, Answer.mapValue_failed] at h
    case load model =>
      rcases load_failed h with ⟨⟨fault,rfl⟩,hs⟩ | ⟨⟨message,rfl⟩,hs⟩
      · exact .data trivial ((hs.mapValue _).mapValue _)
      · exact .refusedLoad hs
    case loadFile path =>
      obtain ⟨⟨message,rfl⟩,hs⟩ := loadFile_failed h
      exact .unreadable hs
    case solve options =>
      rcases solve_failed h with ⟨status,rfl⟩ | ⟨⟨message,rfl⟩,hs⟩
      · exact .nonOptimal
      · exact .refused (by simp) hs
    case writeModel path =>
      obtain ⟨⟨message,rfl⟩,hs⟩ := failed_of_refusedBy (fun _ _ => by simp) h
      exact .refused (by simp) hs
    case writeSolution path style =>
      obtain ⟨⟨message,rfl⟩,hs⟩ := failed_of_refusedBy (fun _ _ => by simp) h
      exact .refused (by simp) hs
  | short c =>
    cases c <;> simp only [SessionCall.perform, ShortCall.perform, Answer.mapValue_failed] at h
    case addConstraints rows =>
      rcases addConstraints_failed h with ⟨⟨fault,rfl⟩,hs⟩ | ⟨⟨message,rfl⟩,hs⟩
      · exact .data trivial ((hs.mapValue _).mapValue _)
      · exact .refused (by simp) hs
    case addVariables columns =>
      rcases addVariables_failed h with ⟨⟨fault,rfl⟩,hs⟩ | ⟨⟨message,rfl⟩,hs⟩
      · exact .data trivial ((hs.mapValue _).mapValue _)
      · exact .refused (by simp) hs
    case warmStart start =>
      rcases warmStart_failed h with ⟨⟨fault,rfl⟩,hs⟩ | ⟨⟨message,rfl⟩,hs⟩
      · exact .data trivial ((hs.mapValue _).mapValue _)
      · exact .refused (by simp) hs
    case setOptions options =>
      obtain ⟨⟨method,message,rfl⟩,hs⟩ := setOptions_failed h
      exact .refused (by simp) hs
    case option name =>
      obtain ⟨⟨message,rfl⟩,hs⟩ := option_failed h
      refine .refused (by simp) ?_
      simp only [SessionCall.perform, ShortCall.perform, Answer.mapValue_session, hs]
      exact sameRecord_refl s
    case reset =>
      obtain ⟨⟨message,rfl⟩,hs⟩ := reset_failed h
      exact .refused (by simp) hs

theorem warmStart_invalid_iff {s : Session σ} {start : WarmStart} :
    (∃ fault, (s.warmStart start).outcome = .failed (.invalidStart fault)) ↔
      ∃ field values, start.get field = some values ∧
        values.length ≠ field.expected s.numCols s.numRows := by
  unfold warmStart
  cases hfault : start.fault? s.numCols s.numRows with
  | some fault =>
    have hsome : start.fault? s.numCols s.numRows ≠ none := by simp [hfault]
    rw [ne_eq, WarmStart.fault?_eq_none_iff] at hsome
    push Not at hsome
    simpa using hsome
  | none =>
    rw [WarmStart.fault?_eq_none_iff] at hfault
    constructor
    · rintro ⟨fault,h⟩
      obtain ⟨⟨message,hcause⟩,-⟩ := failed_of_refusedBy (fun _ _ => by simp) h
      cases hcause
    · rintro ⟨field,values,hget,hlen⟩
      exact absurd (hfault field values hget) hlen

/-- Bad data are found before the engine is asked and change nothing; an empty batch changes nothing
either. A refused call changes nothing that is remembered, whatever the engine did, unless it was a
load: then what is remembered is what the engine says, and no solution. A start is bad exactly when
one of its lists has not the length of the model. -/
theorem failed_calls_atomic (s : Session σ) :
    (∀ (c : SessionCall) (cause : Failure), cause.IsData →
      (c.perform s).outcome = .failed cause → (c.perform s).Untouched s) ∧
    ((s.addConstraints []).outcome = .ok () ∧ (s.addConstraints []).Untouched s) ∧
    ((s.addVariables []).outcome = .ok () ∧ (s.addVariables []).Untouched s) ∧
    (∀ (c : SessionCall) (method : Method) (message : String),
      (∀ model, c ≠ .long (.load model)) →
      (c.perform s).outcome = .failed (.native method message) →
      SameRecord s (c.perform s).session) ∧
    (∀ (model : Model Float) (method : Method) (message : String),
      (s.load model).outcome = .failed (.native method message) →
      (s.load model).session.FollowsEngine) ∧
    (∀ path path' message : String,
      (s.loadFile path).outcome = .failed (.unreadable path' message) →
      (s.loadFile path).session.FollowsEngine) ∧
    (∀ start : WarmStart,
      (∃ fault, (s.warmStart start).outcome = .failed (.invalidStart fault)) ↔
        ∃ field values, start.get field = some values ∧
          values.length ≠ field.expected s.numCols s.numRows) := by
  refine ⟨fun c cause hcause h => ?_,⟨rfl,succeed_untouched s ()⟩,⟨rfl,succeed_untouched s ()⟩,
    fun c method message hc h => ?_,fun model method message h => ?_,
    fun path path' message h => (loadFile_failed h).2,fun start => warmStart_invalid_iff⟩
  · cases perform_failed h with
    | data _ ha => exact ha
    | _ => exact hcause.elim
  · cases perform_failed h with
    | data hcause _ => exact hcause.elim
    | refusedLoad _ => exact absurd rfl (hc _)
    | refused _ ha => exact ha
  · rcases load_failed h with ⟨⟨fault,hcause⟩,-⟩ | ⟨-,hs⟩
    · cases hcause
    · exact hs

/-- The scripted engine refuses a load here and a run there; a start of one value is too long. -/
theorem failed_calls_atomic_scripted :
    let load : Session Scripted :=
      ⟨{ Scripted.fresh with rejected := some .passModel },.notSet,0,0,none⟩
    let run : Session Scripted :=
      ⟨{ Scripted.fresh with rejected := some .run },.optimal,2,1,some .empty⟩
    let start : WarmStart := ⟨some [0],none,none,none⟩
    ((SessionCall.short (.warmStart start)).perform load).Untouched load ∧
    SameRecord run ((SessionCall.long (.solve ⟨false⟩)).perform run).session ∧
    (load.load Model.empty).session.FollowsEngine ∧
    (load.loadFile "missing").session.FollowsEngine ∧
    ∃ fault, (load.warmStart start).outcome = .failed (.invalidStart fault) := by
  intro load run start
  obtain ⟨hdata,-,-,-,hload,hfile,hstart⟩ := failed_calls_atomic load
  obtain ⟨-,-,-,hrefused,-⟩ := failed_calls_atomic run
  exact ⟨hdata _ (.invalidStart ⟨.primalCols,0,1⟩) trivial rfl,
    hrefused _ .run "scripted rejection" (by simp) rfl,
    hload _ .passModel "scripted rejection" rfl,
    hfile _ "missing" "missing not found" (by decide),
    (hstart start).mpr ⟨.primalCols,[0],rfl,by decide⟩⟩

end Session
end SolverSession
