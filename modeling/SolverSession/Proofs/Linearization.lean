import Mathlib.Data.List.Perm.Basic
import Mathlib.Tactic.ByContra
import SolverSession.Background
import SolverSession.Engine.Scripted

/-!
# One call after the other

A history of a pool takes any steps in any order. Whatever the workers do, the session is the one
that the calls in effect leave when they are made one by one on a plain session, in the order in
which they held it; what is reported of a call is what the plain session answers. Every call that
was handed over is waiting, running, or was served once, and a client that never abandons a call is
never told that the session is busy.
-/
namespace SolverSession

variable {σ : Type}

inductive Served where
  | long (job : Job) (result : Except Failure (Option ModelStatus))
  | short (call : ShortCall) (answer : Outcome Failure (Option OptionValue))

inductive Holder where
  | worker (job : Job)
  | client (call : ShortCall)

namespace Served

def holder : Served → Holder
  | long job _ => .worker job
  | short call _ => .client call

def job? : Served → Option Job
  | long job _ => some job
  | short _ _ => none

def id? (x : Served) : Option Nat := x.job?.map (·.id)

end Served

/-- A call as the client makes it. -/
inductive Request where
  | long (call : LongCall)
  | short (call : ShortCall)

def Holder.request : Holder → Request
  | worker job => .long job.call
  | client call => .short call

structure Moment (σ : Type) where
  before : Pool σ
  action : PoolStep
  report : PoolReport σ

namespace Moment

def dispatched? : Moment σ → Option Job
  | ⟨p,.dispatch call,_⟩ => some ⟨p.next,call⟩
  | _ => none

/-- Who takes hold of the session. A short call does so only while no worker holds it. -/
def acquired? : Moment σ → Option Holder
  | ⟨p,.start id,_⟩ => (p.waiting.find? (·.id = id)).map .worker
  | ⟨p,.short call,_⟩ => if p.running.isNone then some (.client call) else none
  | _ => none

/-- The call that takes effect, with what is reported of it. -/
def served? : Moment σ → Option Served
  | ⟨p,.finish,r⟩ => p.running.bind fun job => r.ended.map fun ended => .long job ended.2
  | ⟨p,.short call,r⟩ => if p.running.isNone then r.answered.map (.short call) else none
  | _ => none

def request? : Moment σ → Option Request
  | ⟨_,.dispatch call,_⟩ => some (.long call)
  | ⟨_,.short call,_⟩ => some (.short call)
  | _ => none

end Moment

def dispatched (h : List (Moment σ)) : List Job := h.filterMap Moment.dispatched?

def acquired (h : List (Moment σ)) : List Holder := h.filterMap Moment.acquired?

def served (h : List (Moment σ)) : List Served := h.filterMap Moment.served?

def requested (h : List (Moment σ)) : List Request := h.filterMap Moment.request?

section Cons

variable {h : List (Moment σ)} {p : Pool σ} {r : PoolReport σ} {job : Job} {call : ShortCall}

theorem served_finish {ended : Nat × Except Failure (Option ModelStatus)}
    (hrunning : p.running = some job) (hended : r.ended = some ended) :
    served (⟨p,.finish,r⟩ :: h) = .long job ended.2 :: served h := by
  simp [served, Moment.served?, hrunning, hended]

theorem served_busy (hrunning : p.running = some job) :
    served (⟨p,.short call,r⟩ :: h) = served h := by
  simp [served, Moment.served?, hrunning]

theorem served_short {answer : Outcome Failure (Option OptionValue)} (hrunning : p.running = none)
    (hanswered : r.answered = some answer) :
    served (⟨p,.short call,r⟩ :: h) = .short call answer :: served h := by
  simp [served, Moment.served?, hrunning, hanswered]

theorem acquired_start {id : Nat} (hfind : p.waiting.find? (·.id = id) = some job) :
    acquired (⟨p,.start id,r⟩ :: h) = .worker job :: acquired h := by
  simp [acquired, Moment.acquired?, hfind]

theorem acquired_busy (hrunning : p.running = some job) :
    acquired (⟨p,.short call,r⟩ :: h) = acquired h := by
  simp [acquired, Moment.acquired?, hrunning]

theorem acquired_short (hrunning : p.running = none) :
    acquired (⟨p,.short call,r⟩ :: h) = .client call :: acquired h := by
  simp [acquired, Moment.acquired?, hrunning]

end Cons

/-- Any steps from an idle pool, the latest first. -/
inductive History [Engine σ] (s : Session σ) : List (Moment σ) → Pool σ → Prop where
  | idle : History s [] (.idle s)
  | step {h : List (Moment σ)} {p : Pool σ} {r : PoolReport σ} (a : PoolStep)
      (hp : History s h p) (hr : p.step a = some r) : History s (⟨p,a,r⟩ :: h) r.pool

/-- Calls made one by one on a plain session, the latest first, with what it answers. -/
inductive Session.Replay [Engine σ] (s : Session σ) : List Served → Session σ → Prop where
  | nil : Session.Replay s [] s
  | long {done : List Served} {t : Session σ} (job : Job) (h : Session.Replay s done t) :
      Session.Replay s (.long job (job.result (job.call.perform t).outcome) :: done)
        (job.call.perform t).session
  | short {done : List Served} {t : Session σ} (call : ShortCall)
      (h : Session.Replay s done t) :
      Session.Replay s (.short call (call.perform t).outcome :: done) (call.perform t).session

namespace Pool

/-- What a step can do. -/
inductive Moves [Engine σ] (p : Pool σ) : PoolStep → PoolReport σ → Prop where
  | dispatch {call : LongCall} {events : List Event} (hfree : p.awaited = none) :
      Moves p (.dispatch call) (quietly { p with
        waiting := p.waiting ++ [⟨p.next,call⟩], next := p.next+1,
        awaited := some p.next } events)
  | start {id : Nat} {job : Job} {events : List Event} (hrunning : p.running = none)
      (hfind : p.waiting.find? (·.id = id) = some job) :
      Moves p (.start id) (quietly { p with
        waiting := p.waiting.filter (·.id ≠ id), running := some job } events)
  | finish {job : Job} {events : List Event} (hrunning : p.running = some job) :
      Moves p .finish {
        pool := { p with
          session := (job.call.perform p.session).session
          running := none
          awaited := if p.awaited = some job.id then none else p.awaited }
        events := events
        ended := some (job.id,job.result (job.call.perform p.session).outcome)
        answered := none }
  | abandon {id : Nat} (hawaited : p.awaited = some id) :
      Moves p .abandon (quietly { p with awaited := none } [])
  | busy {call : ShortCall} {job : Job} (hfree : p.awaited = none)
      (hrunning : p.running = some job) :
      Moves p (.short call) ⟨p,[],none,some (.failed call.busy)⟩
  | short {call : ShortCall} (hfree : p.awaited = none) (hrunning : p.running = none) :
      Moves p (.short call) ⟨{ p with session := (call.perform p.session).session },
        (call.perform p.session).events,none,some (call.perform p.session).outcome⟩

theorem step_moves [Engine σ] {p : Pool σ} {a : PoolStep} {r : PoolReport σ}
    (h : p.step a = some r) : p.Moves a r := by
  cases a with
  | dispatch call =>
    simp only [step] at h
    split at h
    · cases h
    · cases h
      exact .dispatch (by simpa using ‹¬p.awaited.isSome = true›)
  | start id =>
    simp only [step] at h
    split at h
    · cases h
      exact .start ‹_› ‹_›
    · cases h
  | finish =>
    simp only [step] at h
    split at h
    · cases h
    · cases h
      exact .finish ‹_›
  | abandon =>
    simp only [step] at h
    split at h
    · cases h
      obtain ⟨id,hid⟩ := Option.isSome_iff_exists.mp ‹p.awaited.isSome = true›
      exact .abandon hid
    · cases h
  | short call =>
    simp only [step] at h
    split at h
    · cases h
    · have hfree : p.awaited = none := by simpa using ‹¬p.awaited.isSome = true›
      split at h
      · cases h
        obtain ⟨job,hjob⟩ := Option.isSome_iff_exists.mp ‹p.running.isSome = true›
        exact .busy hfree hjob
      · cases h
        exact .short hfree (by simpa using ‹¬p.running.isSome = true›)

end Pool

namespace History

variable [Engine σ] {s : Session σ} {h : List (Moment σ)} {p : Pool σ}

theorem replay (hh : History s h p) : s.Replay (served h) p.session := by
  -- Only the end of a worker and a short call on a free session touch the session.
  induction hh with
  | idle => exact .nil
  | @step h p r a hp hr ih =>
    cases Pool.step_moves hr with
    | dispatch hfree => exact ih
    | start hrunning hfind => exact ih
    | @finish job events hrunning =>
      rw [served_finish hrunning rfl]
      exact .long job ih
    | abandon hawaited => exact ih
    | busy hfree hrunning =>
      rw [served_busy hrunning]
      exact ih
    | @short call hfree hrunning =>
      rw [served_short hrunning rfl]
      exact .short call ih

theorem acquired_eq (hh : History s h p) :
    acquired h = p.running.toList.map .worker ++ (served h).map Served.holder := by
  -- A worker takes hold when it starts and is served when it ends; nobody is served in between.
  induction hh with
  | idle => rfl
  | @step h p r a hp hr ih =>
    cases Pool.step_moves hr with
    | dispatch hfree => exact ih
    | @start id job events hrunning hfind =>
      rw [hrunning] at ih
      rw [acquired_start hfind, ih]
      rfl
    | @finish job events hrunning =>
      rw [hrunning] at ih
      rw [served_finish hrunning rfl]
      exact ih
    | abandon hawaited => exact ih
    | busy hfree hrunning =>
      rw [acquired_busy hrunning, served_busy hrunning]
      exact ih
    | @short call hfree hrunning =>
      rw [hrunning] at ih
      rw [acquired_short hrunning, served_short hrunning rfl, ih, hrunning]
      rfl

theorem ids_nodup (hh : History s h p) :
    (∀ job ∈ dispatched h, job.id < p.next) ∧ ((dispatched h).map (·.id)).Nodup := by
  induction hh with
  | idle => exact ⟨nofun,.nil⟩
  | @step h p r a hp hr ih =>
    obtain ⟨hbelow,hnodup⟩ := ih
    cases Pool.step_moves hr with
    | @dispatch call events hfree =>
      have hfresh : p.next ∉ (dispatched h).map (·.id) := by
        intro hmem
        obtain ⟨job,hjob,hid⟩ := List.mem_map.mp hmem
        exact Nat.ne_of_lt (hbelow job hjob) hid
      refine ⟨?_,List.nodup_cons.mpr ⟨hfresh,hnodup⟩⟩
      intro job hjob
      rcases List.mem_cons.mp hjob with rfl | hjob
      · exact Nat.lt_succ_self p.next
      · exact Nat.lt_succ_of_lt (hbelow job hjob)
    | start hrunning hfind => exact ⟨hbelow,hnodup⟩
    | finish hrunning => exact ⟨hbelow,hnodup⟩
    | abandon hawaited => exact ⟨hbelow,hnodup⟩
    | busy hfree hrunning => exact ⟨hbelow,hnodup⟩
    | short hfree hrunning => exact ⟨hbelow,hnodup⟩

theorem find?_perm {l : List Job} {id : Nat} {job : Job} (hnodup : (l.map (·.id)).Nodup)
    (hfind : l.find? (·.id = id) = some job) : l.Perm (job :: l.filter (·.id ≠ id)) := by
  induction l with
  | nil => cases hfind
  | cons x xs ih =>
    obtain ⟨hnot,hnodup⟩ := List.nodup_cons.mp hnodup
    by_cases hx : x.id = id
    · have hjob : x = job := by simpa [hx] using hfind
      have hrest : xs.filter (·.id ≠ id) = xs := by
        refine List.filter_eq_self.mpr fun y hy => ?_
        have hne : y.id ≠ id := fun hid => hnot (List.mem_map.mpr ⟨y,hy,hid.trans hx.symm⟩)
        simpa using hne
      rw [List.filter_cons_of_neg (by simpa using hx), hrest, hjob]
    · have hfind : xs.find? (·.id = id) = some job := by simpa [hx] using hfind
      rw [List.filter_cons_of_pos (by simpa using hx)]
      exact ((ih hnodup hfind).cons x).trans (.swap job x _)

theorem dispatched_perm (hh : History s h p) :
    (dispatched h).Perm
      (p.waiting ++ (p.running.toList ++ (served h).filterMap Served.job?)) := by
  -- Workers start waiting calls in any order, so this holds up to order only.
  induction hh with
  | idle => exact .refl _
  | @step h p r a hp hr ih =>
    cases Pool.step_moves hr with
    | @dispatch call events hfree =>
      have hmove : ∀ rest : List Job, (⟨p.next,call⟩ :: (p.waiting ++ rest)).Perm
          (p.waiting ++ [⟨p.next,call⟩] ++ rest) := by
        intro rest
        rw [List.append_assoc]
        exact List.perm_middle.symm
      exact (ih.cons _).trans (hmove _)
    | @start id job events hrunning hfind =>
      have hids : (p.waiting.map (·.id)).Nodup := by
        have hall := (ih.map (·.id)).nodup (ids_nodup hp).2
        rw [List.map_append] at hall
        exact (List.nodup_append.mp hall).1
      have hsplit := (find?_perm hids hfind).append_right ((served h).filterMap Served.job?)
      rw [hrunning] at ih
      exact (ih.trans hsplit).trans List.perm_middle.symm
    | @finish job events hrunning =>
      rw [hrunning] at ih
      rw [served_finish hrunning rfl]
      exact ih
    | abandon hawaited => exact ih
    | busy hfree hrunning =>
      rw [served_busy hrunning]
      exact ih
    | @short call hfree hrunning =>
      rw [served_short hrunning rfl]
      exact ih

theorem step_of_mem (hh : History s h p) {m : Moment σ} (hm : m ∈ h) :
    m.before.Moves m.action m.report := by
  induction hh with
  | idle => cases hm
  | step a hp hr ih =>
    rcases List.mem_cons.mp hm with rfl | hm
    · exact Pool.step_moves hr
    · exact ih hm

theorem filter_eq_singleton {β : Type} {l : List β} {f : β → Option Nat} {x : β} {n : Nat}
    (hnodup : (l.filterMap f).Nodup) (hx : x ∈ l) (hn : f x = some n) :
    l.filter (f · = some n) = [x] := by
  induction l with
  | nil => cases hx
  | cons y ys ih =>
    have hmem : ∀ z ∈ ys, f z = some n → n ∈ ys.filterMap f :=
      fun z hz hfz => List.mem_filterMap.mpr ⟨z,hz,hfz⟩
    cases hy : f y with
    | none =>
      rw [List.filterMap_cons_none hy] at hnodup
      have hxy : x ≠ y := fun heq => by rw [heq, hy] at hn; cases hn
      have hx : x ∈ ys := (List.mem_cons.mp hx).resolve_left hxy
      rw [List.filter_cons_of_neg (by simp [hy])]
      exact ih hnodup hx
    | some k =>
      rw [List.filterMap_cons_some hy] at hnodup
      obtain ⟨hk,hnodup⟩ := List.nodup_cons.mp hnodup
      by_cases hkn : k = n
      · subst hkn
        have hempty : ys.filter (f · = some k) = [] := by
          refine List.filter_eq_nil_iff.mpr fun z hz hfz => ?_
          exact hk (hmem z hz (by simpa using hfz))
        have hxy : x = y := by
          rcases List.mem_cons.mp hx with hxy | hx
          · exact hxy
          · exact absurd (hmem x hx hn) hk
        rw [List.filter_cons_of_pos (by simp [hy]), hempty, hxy]
      · have hxy : x ≠ y := fun heq => by
          rw [heq, hy] at hn
          exact hkn (Option.some.inj hn)
        have hx : x ∈ ys := (List.mem_cons.mp hx).resolve_left hxy
        rw [List.filter_cons_of_neg (by simpa [hy] using hkn)]
        exact ih hnodup hx

theorem served_ids_nodup (hh : History s h p) : ((served h).filterMap Served.id?).Nodup := by
  have hall := ((dispatched_perm hh).map (·.id)).nodup (ids_nodup hh).2
  rw [List.map_append, List.map_append] at hall
  have hserved := (List.nodup_append.mp (List.nodup_append.mp hall).2.1).2.1
  rwa [List.map_filterMap] at hserved

theorem ended_once (hh : History s h p) {m : Moment σ} (hm : m ∈ h) {id : Nat}
    {result : Except Failure (Option ModelStatus)} (hended : m.report.ended = some (id,result)) :
    ∃ job, job.id = id ∧ result = job.result (job.call.perform m.before.session).outcome ∧
      m.report.pool.session = (job.call.perform m.before.session).session ∧
      (served h).filter (·.id? = some id) = [.long job result] := by
  obtain ⟨before,action,report⟩ := m
  have hmove : before.Moves action report := step_of_mem hh hm
  cases hmove with
  | @finish job events hrunning =>
    cases hended
    refine ⟨job,rfl,rfl,rfl,?_⟩
    -- Numbers are not given out again, so no other call in effect has this one.
    refine filter_eq_singleton (served_ids_nodup hh) (List.mem_filterMap.mpr ⟨_,hm,?_⟩) rfl
    simp [Moment.served?, hrunning]
  | dispatch hfree => cases hended
  | start hrunning hfind => cases hended
  | abandon hawaited => cases hended
  | busy hfree hrunning => cases hended
  | short hfree hrunning => cases hended

end History

/-- The client has nothing under way but the call it awaits. -/
def Pool.Attended (p : Pool σ) : Prop :=
  (p.awaited = none ∧ p.running = none ∧ p.waiting = []) ∨
    ∃ job : Job, p.awaited = some job.id ∧ p.running.toList ++ p.waiting = [job]

theorem Pool.Attended.free {p : Pool σ} (hp : p.Attended) (hfree : p.awaited = none) :
    p.running = none ∧ p.waiting = [] := by
  rcases hp with ⟨-,hrunning,hwaiting⟩ | ⟨job,hawaited,-⟩
  · exact ⟨hrunning,hwaiting⟩
  · rw [hfree] at hawaited
    cases hawaited

theorem Pool.Attended.only {p : Pool σ} (hp : p.Attended) {job : Job}
    (hjob : job ∈ p.running.toList ++ p.waiting) :
    p.awaited = some job.id ∧ p.running.toList ++ p.waiting = [job] := by
  rcases hp with ⟨-,hrunning,hwaiting⟩ | ⟨only,hawaited,hpending⟩
  · rw [hrunning, hwaiting] at hjob
    cases hjob
  · rw [hpending] at hjob
    obtain rfl : job = only := List.mem_singleton.mp hjob
    exact ⟨hawaited,hpending⟩

theorem Pool.Attended.started {p : Pool σ} (hp : p.Attended) {id : Nat} {job : Job}
    (hrunning : p.running = none) (hfind : p.waiting.find? (·.id = id) = some job) :
    p.awaited = some job.id ∧ p.waiting = [job] ∧ p.waiting.filter (·.id ≠ id) = [] := by
  have hid : job.id = id := by simpa using List.find?_some hfind
  obtain ⟨hawaited,hpending⟩ := hp.only (List.mem_append_right _ (List.mem_of_find?_eq_some hfind))
  rw [hrunning, Option.toList_none, List.nil_append] at hpending
  exact ⟨hawaited,hpending,by simp [hpending, hid]⟩

theorem Pool.Attended.finished {p : Pool σ} (hp : p.Attended) {job : Job}
    (hrunning : p.running = some job) : p.awaited = some job.id ∧ p.waiting = [] := by
  have hjob : job ∈ p.running.toList ++ p.waiting := by simp [hrunning]
  obtain ⟨hawaited,hpending⟩ := hp.only hjob
  exact ⟨hawaited,by simpa [hrunning] using hpending⟩

theorem Pool.Attended.move [Engine σ] {p : Pool σ} (hp : p.Attended) {a : PoolStep}
    {r : PoolReport σ} (ha : a ≠ .abandon) (h : p.Moves a r) : r.pool.Attended := by
  cases h with
  | @dispatch call events hfree =>
    obtain ⟨hrunning,hwaiting⟩ := hp.free hfree
    exact .inr ⟨⟨p.next,call⟩,rfl,by simp [Pool.quietly, hrunning, hwaiting]⟩
  | @start id job events hrunning hfind =>
    obtain ⟨hawaited,-,hrest⟩ := hp.started hrunning hfind
    exact .inr ⟨job,hawaited,by rw [Pool.quietly, hrest]; rfl⟩
  | @finish job events hrunning =>
    obtain ⟨hawaited,hwaiting⟩ := hp.finished hrunning
    exact .inl ⟨if_pos hawaited,rfl,hwaiting⟩
  | abandon hawaited => exact absurd rfl ha
  | busy hfree hrunning => exact hp
  | short hfree hrunning => exact .inl ⟨hfree,hp.free hfree⟩

namespace History

variable [Engine σ] {s : Session σ} {h : List (Moment σ)} {p : Pool σ}

theorem attended (hh : History s h p) (hstay : ∀ m ∈ h, m.action ≠ .abandon) :
    p.Attended := by
  induction hh with
  | idle => exact .inl ⟨rfl,rfl,rfl⟩
  | step a hp hr ih =>
    have hbefore := ih fun m hm => hstay m (List.mem_cons_of_mem _ hm)
    exact hbefore.move (hstay _ List.mem_cons_self) (Pool.step_moves hr)

theorem requested_eq (hh : History s h p) (hstay : ∀ m ∈ h, m.action ≠ .abandon) :
    requested h = (p.running.toList ++ p.waiting).map (.long ·.call) ++
      (served h).map (·.holder.request) := by
  induction hh with
  | idle => rfl
  | @step h p r a hp hr ih =>
    -- At most one call is pending, so that none can overtake another.
    have hbefore := attended hp fun m hm => hstay m (List.mem_cons_of_mem _ hm)
    have hrequests := ih fun m hm => hstay m (List.mem_cons_of_mem _ hm)
    cases Pool.step_moves hr with
    | @dispatch call events hfree =>
      obtain ⟨hrunning,hwaiting⟩ := hbefore.free hfree
      rw [hrunning, hwaiting] at hrequests
      simp only [Pool.quietly, hrunning, hwaiting]
      exact congrArg (Request.long call :: ·) hrequests
    | @start id job events hrunning hfind =>
      obtain ⟨-,hwaiting,hrest⟩ := hbefore.started hrunning hfind
      rw [hrunning, hwaiting] at hrequests
      rw [Pool.quietly, hrest]
      exact hrequests
    | @finish job events hrunning =>
      obtain ⟨-,hwaiting⟩ := hbefore.finished hrunning
      rw [hrunning, hwaiting] at hrequests
      rw [served_finish hrunning rfl, hwaiting]
      exact hrequests
    | abandon hawaited => exact absurd rfl (hstay _ List.mem_cons_self)
    | busy hfree hrunning =>
      rw [(hbefore.free hfree).1] at hrunning
      cases hrunning
    | @short call hfree hrunning =>
      obtain ⟨-,hwaiting⟩ := hbefore.free hfree
      rw [hrunning, hwaiting] at hrequests
      rw [served_short hrunning rfl, hrunning, hwaiting]
      exact congrArg (Request.short call :: ·) hrequests

theorem frame (hh : History s h p) {m : Moment σ} (hm : m ∈ h) (hserved : m.served? = none) :
    m.report.pool.session = m.before.session := by
  obtain ⟨before,action,report⟩ := m
  have hmove : before.Moves action report := step_of_mem hh hm
  cases hmove with
  | dispatch hfree => rfl
  | start hrunning hfind => rfl
  | finish hrunning => simp [Moment.served?, hrunning] at hserved
  | abandon hawaited => rfl
  | busy hfree hrunning => rfl
  | short hfree hrunning => simp [Moment.served?, hrunning] at hserved

theorem short_cases (hh : History s h p) {m : Moment σ} (hm : m ∈ h) {call : ShortCall}
    (haction : m.action = .short call) :
    (m.before.running ≠ none ∧ m.report.answered = some (.failed call.busy) ∧
      m.report.pool = m.before) ∨
    (m.before.running = none ∧ ∃ answer, m.report.answered = some answer ∧
      m.served? = some (.short call answer)) := by
  obtain ⟨before,action,report⟩ := m
  obtain rfl : action = .short call := haction
  have hmove : before.Moves (.short call) report := step_of_mem hh hm
  cases hmove with
  | busy hfree hrunning => exact .inl ⟨by simp [hrunning],rfl,rfl⟩
  | short hfree hrunning =>
    exact .inr ⟨hrunning,_,rfl,by simp [Moment.served?, hrunning]⟩

theorem never_busy (hh : History s h p) (hstay : ∀ m ∈ h, m.action ≠ .abandon) {m : Moment σ}
    (hm : m ∈ h) {call : ShortCall} (haction : m.action = .short call) :
    m.before.running = none := by
  induction hh with
  | idle => cases hm
  | @step h p r a hp hr ih =>
    have hbefore := attended hp fun m hm => hstay m (List.mem_cons_of_mem _ hm)
    rcases List.mem_cons.mp hm with rfl | hm
    · obtain rfl : a = .short call := haction
      cases Pool.step_moves hr with
      | busy hfree hrunning => exact (hbefore.free hfree).1
      | short hfree hrunning => exact hrunning
    · exact ih (fun m hm => hstay m (List.mem_cons_of_mem _ hm)) hm

end History

/-- What is seen of the pool is what is seen of a plain session that gets one call at a time. -/
structure Linear [Engine σ] (s : Session σ) (h : List (Moment σ)) (p : Pool σ) : Prop where
  /-- The calls in effect, made one by one on a plain session, lead to the session and get the
  answers that were reported. -/
  replay : s.Replay (served h) p.session
  /-- They are in the order in which they held the session; a worker that is at work holds it. -/
  order : acquired h = p.running.toList.map .worker ++ (served h).map Served.holder
  /-- A step in which no call takes effect leaves the session alone. -/
  frame : ∀ m ∈ h, m.served? = none → m.report.pool.session = m.before.session
  numbered : ((dispatched h).map (·.id)).Nodup
  /-- A call that was handed over is waiting, running, or took effect once. -/
  accounted : (dispatched h).Perm
    (p.waiting ++ (p.running.toList ++ (served h).filterMap Served.job?))
  /-- An awaited call that returns took effect in this step and in no other, and returns what came
  of it. -/
  returned : ∀ m ∈ h, ∀ id result, m.before.awaited = some id →
    m.report.ended = some (id,result) →
    ∃ job, job.id = id ∧ result = job.result (job.call.perform m.before.session).outcome ∧
      m.report.pool.session = (job.call.perform m.before.session).session ∧
      (served h).filter (·.id? = some id) = [.long job result]
  /-- A short call is refused as busy and changes nothing while a worker holds the session, and is
  served otherwise. -/
  short : ∀ m ∈ h, ∀ call, m.action = .short call →
    (m.before.running ≠ none ∧ m.report.answered = some (.failed call.busy) ∧
      m.report.pool = m.before) ∨
    (m.before.running = none ∧ ∃ answer, m.report.answered = some answer ∧
      m.served? = some (.short call answer))
  /-- If no call is abandoned, none is refused as busy, and the calls take effect in the order in
  which the client makes them. -/
  attended : (∀ m ∈ h, m.action ≠ .abandon) →
    (∀ m ∈ h, ∀ call, m.action = .short call → m.before.running = none) ∧
    requested h = (p.running.toList ++ p.waiting).map (.long ·.call) ++
      (served h).map (·.holder.request)

theorem history_linear [Engine σ] {s : Session σ} {h : List (Moment σ)} {p : Pool σ}
    (hh : History s h p) : Linear s h p where
  replay := hh.replay
  order := hh.acquired_eq
  frame := fun _ hm => hh.frame hm
  numbered := hh.ids_nodup.2
  accounted := hh.dispatched_perm
  returned := fun _ hm _ _ _ hended => hh.ended_once hm hended
  short := fun _ hm _ haction => hh.short_cases hm haction
  attended := fun hstay =>
    ⟨fun _ hm _ haction => hh.never_busy hstay hm haction,hh.requested_eq hstay⟩

/-- Two loads are handed over and the first is abandoned. The second is done first, and while the
first is under way the client is refused. -/
theorem history_linear_abandoned_load :
    let s : Session Scripted := ⟨.fresh,.notSet,0,0,none⟩
    ∃ h p, History s h p ∧ Linear s h p ∧ h.length = 9 ∧ (served h).length = 3 ∧
      p.session.numCols = 0 := by
  intro s
  have h0 : History s [] (.idle s) := .idle
  have h1 := h0.step (.dispatch (.load .empty)) rfl
  have h2 := h1.step .abandon rfl
  have h3 := h2.step (.dispatch (.load ⟨none,[.free .continuous],[]⟩)) rfl
  have h4 := h3.step (.start 1) rfl
  have h5 := h4.step .finish rfl
  have h6 := h5.step (.start 0) rfl
  have h7 := h6.step (.short .reset) rfl
  have h8 := h7.step .finish rfl
  have h9 := h8.step (.short .reset) rfl
  exact ⟨_,_,h9,history_linear h9,rfl,rfl,rfl⟩

end SolverSession
