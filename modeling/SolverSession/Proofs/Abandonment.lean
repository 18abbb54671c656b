import SolverSession.Proofs.Linearization

/-!
# Abandoned calls

A call that is abandoned goes on by itself. Once a worker has started it, it holds the session:
until it ends, short calls are refused and no other call takes effect. While it is waiting it holds
nothing, and any call made after it may take effect before it; when it is started at last, it does
its work on what the others left.
-/
namespace SolverSession

variable {σ : Type}

/-- All along a worker is at work on the job: no call takes effect and short ones are refused. -/
structure Job.Holds (job : Job) (meanwhile : List (Moment σ)) (p : Pool σ) : Prop where
  running : p.running = some job
  served : served meanwhile = []
  busy : ∀ m ∈ meanwhile, ∀ call, m.action = .short call →
    m.report.answered = some (.failed call.busy) ∧ m.report.pool = m.before

theorem Job.Holds.quiet {job : Job} {meanwhile : List (Moment σ)} {p q : Pool σ}
    (h : job.Holds meanwhile p) {m : Moment σ} (hrunning : q.running = some job)
    (hserved : m.served? = none) (hshort : ∀ call, m.action ≠ .short call) :
    job.Holds (m :: meanwhile) q := by
  refine ⟨hrunning,(List.filterMap_cons_none hserved).trans h.served,fun n hn call haction => ?_⟩
  rcases List.mem_cons.mp hn with rfl | hn
  · exact absurd haction (hshort call)
  · exact h.busy n hn call haction

/-- In what follows, the first call to take effect is the job, and it holds the session till then. -/
def Job.HoldsUntilEnd (job : Job) (later : List (Moment σ)) : Prop :=
  ∃ after m meanwhile result, later = after ++ m :: meanwhile ∧
    job.Holds meanwhile m.before ∧ m.served? = some (.long job result)

namespace History

variable [Engine σ] {s : Session σ} {h earlier later : List (Moment σ)} {p q : Pool σ} {job : Job}

theorem pool_unique (hp : History s h p) (hq : History s h q) : p = q := by
  cases hp with
  | idle => cases hq; rfl
  | step a hp hr => cases hq; rfl

theorem holds_step {a : PoolStep} {r : PoolReport σ} (hholds : job.Holds later p)
    (h : p.Moves a r) :
    job.Holds (⟨p,a,r⟩ :: later) r.pool ∨
      ∃ result, (⟨p,a,r⟩ : Moment σ).served? = some (.long job result) := by
  cases h with
  | dispatch hfree =>
    exact .inl (hholds.quiet hholds.running rfl fun _ hshort => by cases hshort)
  | start hrunning hfind =>
    rw [hholds.running] at hrunning
    cases hrunning
  | finish hrunning =>
    rw [hholds.running] at hrunning
    cases hrunning
    exact .inr ⟨_,by simp only [Moment.served?, hholds.running]; rfl⟩
  | abandon hawaited =>
    exact .inl (hholds.quiet hholds.running rfl fun _ hshort => by cases hshort)
  | @busy call other hfree hrunning =>
    refine .inl ⟨hholds.running,?_,fun m hm call haction => ?_⟩
    · rw [served_busy hrunning]
      exact hholds.served
    · rcases List.mem_cons.mp hm with rfl | hm
      · cases haction
        exact ⟨rfl,rfl⟩
      · exact hholds.busy m hm call haction
  | short hfree hrunning =>
    rw [hholds.running] at hrunning
    cases hrunning

theorem started_holds (hq : History s earlier q) (hrunning : q.running = some job)
    (hp : History s (later ++ earlier) p) : job.Holds later p ∨ job.HoldsUntilEnd later := by
  induction later generalizing p with
  | nil =>
    obtain rfl := pool_unique hq hp
    exact .inl ⟨hrunning,rfl,fun _ hm => absurd hm List.not_mem_nil⟩
  | cons m later ih =>
    cases hp with
    | @step _ before r a hbefore hr =>
      -- Either the job still held the session before this step, or it had come to its end by then.
      rcases ih hbefore with hholds | ⟨after,n,meanwhile,result,rfl,hends⟩
      · rcases holds_step hholds (Pool.step_moves hr) with hnext | ⟨result,hserved⟩
        · exact .inl hnext
        · exact .inr ⟨[],_,later,result,rfl,hholds,hserved⟩
      · exact .inr ⟨_ :: after,n,meanwhile,result,rfl,hends⟩

theorem exists_free (hq : History s earlier q) (hfree : q.awaited = none) :
    ∃ later p, History s (later ++ earlier) p ∧ p.running = none ∧ p.awaited = none ∧
      p.waiting = q.waiting ∧ p.next = q.next := by
  cases hrunning : q.running with
  | none => exact ⟨[],q,hq,hrunning,hfree,rfl,rfl⟩
  | some other =>
    have hfinish : ∃ r, q.step .finish = some r ∧ r.pool.running = none ∧
        r.pool.awaited = none ∧ r.pool.waiting = q.waiting ∧ r.pool.next = q.next := by
      simp [Pool.step, hrunning, hfree]
    obtain ⟨r,hr,hend⟩ := hfinish
    exact ⟨[_],r.pool,hq.step .finish hr,hend⟩

theorem id_lt_next (hp : History s h p) (hjob : job ∈ p.waiting) : job.id < p.next :=
  hp.ids_nodup.1 job (hp.dispatched_perm.mem_iff.mpr (List.mem_append_left _ hjob))

theorem short_takes_effect (hp : History s h p) (hfree : p.awaited = none)
    (hrunning : p.running = none) (call : ShortCall) :
    ∃ m q, History s (m :: h) q ∧ q.waiting = p.waiting ∧
      ∃ answer, m.served? = some (.short call answer) := by
  obtain ⟨r,hr⟩ : ∃ r, p.step (.short call) = some r := by simp [Pool.step, hfree, hrunning]
  refine ⟨_,r.pool,hp.step _ hr,?_⟩
  cases Pool.step_moves hr with
  | busy _ hbusy =>
    rw [hrunning] at hbusy
    cases hbusy
  | short => exact ⟨rfl,(call.perform p.session).outcome,by simp [Moment.served?, hrunning]⟩

theorem long_takes_effect (hp : History s h p) (hfree : p.awaited = none)
    (hrunning : p.running = none) (call : LongCall) :
    ∃ m n k q, History s (m :: n :: k :: h) q ∧ (∀ job ∈ p.waiting, job ∈ q.waiting) ∧
      ∃ result, m.served? = some (.long ⟨p.next,call⟩ result) := by
  let new : Job := ⟨p.next,call⟩
  obtain ⟨r₁,h₁,hpool₁⟩ : ∃ r, p.step (.dispatch call) = some r ∧ r.pool = { p with
      waiting := p.waiting ++ [new], next := p.next+1, awaited := some p.next } := by
    simp [Pool.step, Pool.quietly, hfree, new]
  have hfind : r₁.pool.waiting.find? (·.id = p.next) = some new := by
    have hnone : p.waiting.find? (·.id = p.next) = none := by
      refine List.find?_eq_none.mpr fun job hjob => ?_
      simpa using Nat.ne_of_lt (id_lt_next hp hjob)
    simp [hpool₁, hnone, new]
  have hfree₁ : r₁.pool.running = none := by rw [hpool₁]; exact hrunning
  obtain ⟨r₂,h₂,hpool₂⟩ : ∃ r, r₁.pool.step (.start p.next) = some r ∧ r.pool = { r₁.pool with
      waiting := r₁.pool.waiting.filter (·.id ≠ p.next), running := some new } := by
    simp only [Pool.step, hfree₁, hfind]
    exact ⟨_,rfl,rfl⟩
  obtain ⟨r₃,h₃,hpool₃⟩ : ∃ r, r₂.pool.step .finish = some r ∧
      r.pool.waiting = r₂.pool.waiting := by
    simp [Pool.step, hpool₂]
  refine ⟨_,_,_,r₃.pool,((hp.step _ h₁).step _ h₂).step _ h₃,fun job hjob => ?_,?_⟩
  · have hother := Nat.ne_of_lt (id_lt_next hp hjob)
    rw [hpool₃, hpool₂, hpool₁]
    exact List.mem_filter.mpr ⟨List.mem_append_left _ hjob,by simpa using hother⟩
  · cases Pool.step_moves h₃ with
    | finish hjob =>
      rw [hpool₂] at hjob
      cases hjob
      exact ⟨_,by simp only [Moment.served?, hpool₂]; rfl⟩

end History

variable [Engine σ]

/-- A call that a worker has started is not overtaken, abandoned or not: the first call to take
effect is this one, and until its end every short call is refused as busy and changes nothing. A
call that nobody awaits and that is still waiting is overtaken by whatever is asked for: every short
call, and every long call handed over after it, can take effect while it goes on waiting. -/
theorem overtaken_only_while_waiting {s : Session σ} {earlier : List (Moment σ)} {q : Pool σ}
    (hq : History s earlier q) (job : Job) :
    (q.running = some job → ∀ later p, History s (later ++ earlier) p →
      job.Holds later p ∨ job.HoldsUntilEnd later) ∧
    (job ∈ q.waiting → q.awaited = none → ∀ request : Request,
      ∃ later p, History s (later ++ earlier) p ∧ job ∈ p.waiting ∧
        ∃ x ∈ served later, x.holder.request = request) := by
  refine ⟨fun hrunning later p hp => hq.started_holds hrunning hp,fun hjob hfree request => ?_⟩
  obtain ⟨before,p,hp,hrunning,hawaited,hwaiting,-⟩ := hq.exists_free hfree
  rw [← hwaiting] at hjob
  cases request with
  | short call =>
    obtain ⟨m,r,hr,hsame,answer,hserved⟩ := hp.short_takes_effect hawaited hrunning call
    refine ⟨m :: before,r,hr,hsame ▸ hjob,.short call answer,?_,rfl⟩
    exact List.mem_filterMap.mpr ⟨m,List.mem_cons_self,hserved⟩
  | long call =>
    obtain ⟨m,n,k,r,hr,hstay,result,hserved⟩ := hp.long_takes_effect hawaited hrunning call
    refine ⟨m :: n :: k :: before,r,hr,hstay job hjob,.long ⟨p.next,call⟩ result,?_,rfl⟩
    exact List.mem_filterMap.mpr ⟨m,List.mem_cons_self,hserved⟩

/-- A load that was started before it was abandoned makes a reset wait, and one that was not lets the
reset pass. -/
theorem overtaken_only_while_waiting_reset :
    let s : Session Scripted := ⟨.fresh,.notSet,0,0,none⟩
    let job : Job := ⟨0,.load .empty⟩
    (∃ earlier q later p, History s earlier q ∧ q.running = some job ∧ later.length = 2 ∧
      History s (later ++ earlier) p ∧ (job.Holds later p ∨ job.HoldsUntilEnd later)) ∧
    ∃ earlier q, History s earlier q ∧ job ∈ q.waiting ∧ q.awaited = none ∧
      ∃ later p, History s (later ++ earlier) p ∧ job ∈ p.waiting ∧
        ∃ x ∈ served later, x.holder.request = .short .reset := by
  intro s job
  have h1 := (History.idle : History s [] (.idle s)).step (.dispatch job.call) rfl
  have hstarted := (h1.step (.start 0) rfl).step .abandon rfl
  have hended := (hstarted.step (.short .reset) rfl).step .finish rfl
  have hwaits := h1.step .abandon rfl
  refine ⟨⟨_,_,[_,_],_,hstarted,rfl,rfl,hended,?_⟩,_,_,hwaits,List.mem_singleton_self _,rfl,?_⟩
  · exact (overtaken_only_while_waiting hstarted job).1 rfl [_,_] _ hended
  · exact (overtaken_only_while_waiting hwaits job).2 (List.mem_singleton_self _) rfl
      (.short .reset)

/-- A load of two columns is abandoned before it is started. An option is read at once, a load of
one column is awaited and succeeds, and then the session falls back to two columns. -/
theorem abandoned_load_overtakes :
    let s : Session Scripted := ⟨.fresh,.notSet,0,0,none⟩
    let first : LongCall := .load ⟨none,[.free .continuous,.free .continuous],[]⟩
    let second : LongCall := .load ⟨none,[.free .continuous],[]⟩
    ∃ h p m, History s (m :: h) p ∧
      (m :: h).map (·.action) = [.finish,.start 0,.finish,.start 1,.dispatch second,
        .short (.option "threads"),.abandon,.dispatch first] ∧
      served (m :: h) = [.long ⟨0,first⟩ (.ok none),.long ⟨1,second⟩ (.ok none),
        .short (.option "threads") (.ok (some (.int 0)))] ∧
      m.before.session.numCols = 1 ∧ p.session.numCols = 2 := by
  intro s first second
  have h0 : History s [] (.idle s) := .idle
  have h1 := h0.step (.dispatch first) rfl
  have h2 := h1.step .abandon rfl
  have h3 := h2.step (.short (.option "threads")) rfl
  have h4 := h3.step (.dispatch second) rfl
  have h5 := h4.step (.start 1) rfl
  have h6 := h5.step .finish rfl
  have h7 := h6.step (.start 0) rfl
  have h8 := h7.step .finish rfl
  exact ⟨_,_,_,h8,rfl,rfl,rfl,rfl⟩

end SolverSession
