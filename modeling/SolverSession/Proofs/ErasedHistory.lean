import SolverSession.Proofs.Bisimulation
import SolverSession.Proofs.Lifecycle

/-!
# What a load and a reset erase

After a load that succeeds, nothing that happened before it can be told any more, except by the
settings of the engine, which a load leaves alone. A reset does the same for everything but the
dimensions. The engine still holds the model that was passed and the start that was given last, so
its states differ; no call brings these two to light.
-/
namespace SolverSession

namespace Scripted

/-- The engines differ at most in the model that was passed and in the last start. -/
def Twin (e f : Scripted) : Prop :=
  ∃ passed start, f = { e with passed := passed, warmStart := start }

/-- The engines have the same settings, apart from the files. -/
structure SameSettings (e f : Scripted) : Prop where
  options : f.options = e.options
  next : f.next = e.next
  rejected : f.rejected = e.rejected
  rejectedOption : f.rejectedOption = e.rejectedOption
  keepSolution : f.keepSolution = e.keepSolution

variable {e f : Scripted}

theorem Twin.sameReports (h : e.Twin f) : SameReports f e := by
  obtain ⟨passed,start,rfl⟩ := h
  exact ⟨rfl,rfl,rfl,rfl,rfl⟩

theorem Twin.adjust (h : e.Twin f) (x : Setting) : (e.adjust x).Twin (f.adjust x) := by
  obtain ⟨passed,start,rfl⟩ := h
  cases x <;> exact ⟨passed,start,rfl⟩

theorem Twin.checked (h : e.Twin f) {method : Method} {fails : Scripted → Scripted}
    {goesOn : Scripted → Reply Scripted}
    (hfails : ∀ {e f : Scripted}, e.Twin f → (fails e).Twin (fails f))
    (hgoesOn : ∀ passed start,
      (goesOn e).Alike Twin (goesOn { e with passed := passed, warmStart := start })) :
    (e.checked method fails goesOn).Alike Twin (f.checked method fails goesOn) := by
  obtain ⟨passed,start,rfl⟩ := h
  unfold Scripted.checked
  dsimp only
  split
  · exact ⟨rfl,hfails ⟨passed,start,rfl⟩,rfl⟩
  · exact hgoesOn passed start

theorem writeText_alike (e : Scripted) (path text : String) (passed : Option (FlatModel Float))
    (start : Option WarmStart) : (e.writeText path text).Alike Twin
      ({ e with passed := passed, warmStart := start }.writeText path text) := by
  unfold writeText
  dsimp only
  split <;> exact ⟨rfl,⟨passed,start,rfl⟩,rfl⟩

theorem twin_bisimulation : Engine.Bisimulation Twin where
  passModel h model := by
    dsimp only [Engine.passModel, Scripted.passModel]
    refine h.checked ?_ fun _ start => ⟨rfl,⟨some model,start,rfl⟩,rfl⟩
    rintro e f ⟨passed,start,rfl⟩
    exact ⟨none,start,rfl⟩
  readModel h path := by
    dsimp only [Engine.readModel, Scripted.readModel]
    refine h.checked id fun passed start => ?_
    dsimp only
    split
    · exact ⟨rfl,⟨none,start,rfl⟩,rfl⟩
    · exact ⟨rfl,⟨passed,start,rfl⟩,rfl⟩
  writeModel h path := h.checked id (writeText_alike _ _ _)
  writeSolution h path style := by
    dsimp only [Engine.writeSolution, Scripted.writeSolution]
    exact h.checked id (writeText_alike _ _ _)
  addRows h batch := by
    dsimp only [Engine.addRows, Scripted.addRows]
    refine h.checked id fun passed start => ?_
    dsimp only
    split
    · split <;> exact ⟨rfl,⟨passed,start,rfl⟩,rfl⟩
    · exact ⟨rfl,⟨passed,start,rfl⟩,rfl⟩
  addCols h batch := by
    dsimp only [Engine.addCols, Scripted.addCols]
    exact h.checked id fun passed start => ⟨rfl,⟨passed,start,rfl⟩,rfl⟩
  run h := by
    dsimp only [Engine.run, Scripted.run]
    exact h.checked id fun passed start => ⟨rfl,⟨passed,start,rfl⟩,rfl⟩
  setSolution h given := by
    dsimp only [Engine.setSolution, Scripted.setSolution]
    exact h.checked id fun passed _ => ⟨rfl,⟨passed,some given,rfl⟩,rfl⟩
  setOption h name value := by
    dsimp only [Engine.setOption, Scripted.setOption]
    refine h.checked id fun passed start => ?_
    dsimp only
    split <;> exact ⟨rfl,⟨passed,start,rfl⟩,rfl⟩
  clearSolver h := h.checked id fun passed start => ⟨rfl,⟨passed,start,rfl⟩,rfl⟩
  optionKind h name := by
    obtain ⟨passed,start,rfl⟩ := h
    rfl
  getOption h name := by
    obtain ⟨passed,start,rfl⟩ := h
    rfl
  modelStatus h := h.sameReports.statusCode
  info h := h.sameReports.info
  solution h := h.sameReports.solution
  reading _ := rfl
  numCols h := h.sameReports.numCols
  numRows h := h.sameReports.numRows

theorem SameSettings.resized (h : e.SameSettings f) (numCols numRows : Nat)
    (passed : Option (FlatModel Float)) :
    SameSettings { e with numCols := numCols, numRows := numRows, passed := passed }
      { f with numCols := numCols, numRows := numRows, passed := passed } :=
  ⟨h.options,h.next,h.rejected,h.rejectedOption,h.keepSolution⟩

/-- Engines with the same settings and dimensions are twins in the same files when they have
forgotten the rest. -/
theorem SameSettings.twin_forget (h : e.SameSettings f) (hcols : f.numCols = e.numCols)
    (hrows : f.numRows = e.numRows) (disk : Disk) :
    (e.forget.adjust (.disk disk)).Twin (f.forget.adjust (.disk disk)) := by
  refine ⟨f.passed,f.warmStart,?_⟩
  simp only [forget, adjust, h.options, h.next, h.rejected, h.rejectedOption, h.keepSolution,
    hcols, hrows]

end Scripted

/-- Something done to a session: a setting of the engine or a call. -/
inductive Operation where
  | setting (x : Scripted.Setting)
  | call (c : SessionCall)

/-- What is seen of an operation: how the call ended, its events, the accessors and the files. -/
structure Sighting where
  outcome : Option (Outcome Failure Returned)
  events : List Event
  view : View
  disk : Disk

namespace Session

def adjust (s : Session Scripted) (x : Scripted.Setting) : Session Scripted :=
  { s with engine := s.engine.adjust x }

def watch (s : Session Scripted) : List Operation → List Sighting
  | [] => []
  | .setting x :: rest =>
    let t := s.adjust x
    ⟨none,[],t.view,t.engine.disk⟩ :: t.watch rest
  | .call c :: rest =>
    let a := c.perform s
    ⟨some a.outcome,a.events,a.session.view,a.session.engine.disk⟩ :: a.session.watch rest

variable {s t : Session Scripted}

theorem option_outcome (s : Session Scripted) (name : String) :
    (s.option name).outcome = match Scripted.getOption name s.engine with
      | .error message => .failed (.native .getOption message)
      | .ok value => .ok value := by
  unfold option
  dsimp only [Engine.getOption]
  cases Scripted.getOption name s.engine <;> rfl

theorem view_disk (s : Session Scripted) (disk : Disk) :
    (s.adjust (.disk disk)).view = s.view := by
  -- Reading an option answers with the session, so the two answers are equal in their outcome only.
  have hoption : ∀ name, ((s.adjust (.disk disk)).option name).outcome =
      (s.option name).outcome := by
    intro name
    rw [option_outcome, option_outcome]
    rfl
  simp only [view, hoption]
  rfl

theorem Alike.adjust (h : s.Alike Scripted.Twin t) (x : Scripted.Setting) :
    (s.adjust x).Alike Scripted.Twin (t.adjust x) :=
  ⟨Scripted.Twin.adjust h.engine x,h.status,h.numCols,h.numRows,h.cached⟩

theorem Alike.disk (h : s.Alike Scripted.Twin t) : s.engine.disk = t.engine.disk := by
  obtain ⟨passed,start,hengine⟩ := h.engine
  rw [hengine]

theorem Alike.watch (h : s.Alike Scripted.Twin t) (operations : List Operation) :
    s.watch operations = t.watch operations := by
  induction operations generalizing s t with
  | nil => rfl
  | cons operation rest ih =>
    cases operation with
    | setting x =>
      have hnext := h.adjust x
      simp only [Session.watch, hnext.view Scripted.twin_bisimulation, hnext.disk, ih hnext]
    | call c =>
      have ha := h.perform Scripted.twin_bisimulation c
      simp only [Session.watch, ha.outcome, ha.events, ha.session.view Scripted.twin_bisimulation,
        ha.session.disk, ih ha.session]

/-! ## What is left after each call -/

theorem goesOn_of_ok {β : Type} {call : EngineCall} {method : Method}
    {fails : Scripted → Scripted} {goesOn : Scripted → Reply Scripted}
    {refused : String → Session Scripted → Answer Scripted β}
    {returned : Session Scripted → Answer Scripted β} {x : β}
    (hrefused : ∀ message u, (refused message u).outcome ≠ .ok x)
    (h : (s.calling call (s.engine.checked method fails goesOn) refused returned).outcome = .ok x) :
    s.engine.checked method fails goesOn = goesOn s.engine := by
  by_cases hrejected : s.engine.rejected = some method
  · rw [Scripted.checked, if_pos hrejected, calling_failed rfl] at h
    exact absurd h (hrefused _ _)
  · exact if_neg hrejected

theorem load_ok {model : Model Float} (h : (s.load model).outcome = .ok ()) :
    ∃ flat, model.flatten = .ok flat ∧ (s.load model).session =
      ⟨{ s.engine with
          numCols := flat.numCols, numRows := flat.numRows, passed := some flat }.forget,
        .notSet,flat.numCols,flat.numRows,none⟩ := by
  unfold load at h ⊢
  cases hflat : model.flatten with
  | error fault => simp [hflat] at h
  | ok flat =>
    simp only [hflat, Engine.passModel, Scripted.passModel] at h ⊢
    rw [goesOn_of_ok (fun _ _ => by simp) h]
    exact ⟨flat,rfl,rfl⟩

theorem loadFile_ok {path : String} (h : (s.loadFile path).outcome = .ok ()) :
    (s.loadFile path).session = ⟨s.engine.unload,.notSet,0,0,none⟩ := by
  unfold loadFile at h ⊢
  simp only [Engine.readModel, Scripted.readModel] at h ⊢
  have hgoesOn := goesOn_of_ok (fun _ _ => by simp) h
  rw [hgoesOn] at h ⊢
  by_cases hfile : s.engine.disk.contains path = true
  · rw [if_pos hfile]
    rfl
  · rw [if_neg hfile, calling_failed rfl] at h
    cases h

theorem reset_ok (h : s.reset.outcome = .ok ()) :
    s.reset.session = ⟨s.engine.forget,.notSet,s.numCols,s.numRows,none⟩ := by
  unfold reset at h ⊢
  simp only [Engine.clearSolver] at h ⊢
  rw [goesOn_of_ok (fun _ _ => by simp [refusedBy]) h]
  rfl

theorem Alike.of_forget {e f : Scripted} (h : e.SameSettings f) (hcols : f.numCols = e.numCols)
    (hrows : f.numRows = e.numRows) (disk : Disk) (numCols numRows : Nat) :
    (Session.adjust ⟨e.forget,.notSet,numCols,numRows,none⟩ (.disk disk)).Alike Scripted.Twin
      (Session.adjust ⟨f.forget,.notSet,numCols,numRows,none⟩ (.disk disk)) :=
  ⟨h.twin_forget hcols hrows disk,rfl,rfl,rfl,rfl⟩

theorem load_alike (hset : s.engine.SameSettings t.engine) {model : Model Float}
    (hs : (s.load model).outcome = .ok ()) (ht : (t.load model).outcome = .ok ()) (disk : Disk) :
    ((s.load model).session.adjust (.disk disk)).Alike Scripted.Twin
      ((t.load model).session.adjust (.disk disk)) := by
  obtain ⟨flat,hflat,hsession⟩ := load_ok hs
  obtain ⟨flat',hflat',hsession'⟩ := load_ok ht
  obtain rfl : flat = flat' := Except.ok.inj (hflat.symm.trans hflat')
  rw [hsession, hsession']
  exact .of_forget (hset.resized _ _ _) rfl rfl disk _ _

theorem loadFile_alike (hset : s.engine.SameSettings t.engine) {path : String}
    (hs : (s.loadFile path).outcome = .ok ()) (ht : (t.loadFile path).outcome = .ok ())
    (disk : Disk) : ((s.loadFile path).session.adjust (.disk disk)).Alike Scripted.Twin
      ((t.loadFile path).session.adjust (.disk disk)) := by
  rw [loadFile_ok hs, loadFile_ok ht]
  exact .of_forget (hset.resized 0 0 none) rfl rfl disk 0 0

theorem reset_alike (hset : s.engine.SameSettings t.engine) (hstep : s.InStep) (htep : t.InStep)
    (hcols : t.numCols = s.numCols) (hrows : t.numRows = s.numRows)
    (hs : s.reset.outcome = .ok ()) (ht : t.reset.outcome = .ok ()) (disk : Disk) :
    (s.reset.session.adjust (.disk disk)).Alike Scripted.Twin
      (t.reset.session.adjust (.disk disk)) := by
  rw [reset_ok hs, reset_ok ht, hcols, hrows]
  refine .of_forget hset ?_ ?_ disk _ _
  · rw [← htep.numCols, hcols, hstep.numCols]
  · rw [← htep.numRows, hrows, hstep.numRows]

end Session

/-- The calls that erase what happened to the sessions before: loads, and a reset if both models
have the same dimensions. -/
inductive SessionCall.Erases (s t : Session Scripted) : SessionCall → Prop where
  | load (model : Model Float) : Erases s t (.long (.load model))
  | loadFile (path : String) : Erases s t (.long (.loadFile path))
  | reset (hcols : t.numCols = s.numCols) (hrows : t.numRows = s.numRows) :
      Erases s t (.short .reset)

theorem Answer.ok_of_mapValue {σ β γ δ : Type} {f : β → γ} {g : γ → δ} {a : Answer σ β} {y : δ}
    (h : ((a.mapValue f).mapValue g).outcome = .ok y) : ∃ x, a.outcome = .ok x := by
  cases ha : a.outcome with
  | ok x => exact ⟨x,rfl⟩
  | failed cause => simp [mapValue, ha] at h
  | crashed => simp [mapValue, ha] at h

theorem perform_erases {s t : Session Scripted} {c : SessionCall} (hc : c.Erases s t)
    (hset : s.engine.SameSettings t.engine) (hstep : s.InStep) (hstep' : t.InStep)
    (hs : (c.perform s).outcome = .ok .nothing) (ht : (c.perform t).outcome = .ok .nothing)
    (disk : Disk) : ((c.perform s).session.adjust (.disk disk)).Alike Scripted.Twin
      ((c.perform t).session.adjust (.disk disk)) := by
  cases hc with
  | load model =>
    obtain ⟨_,hs⟩ := Answer.ok_of_mapValue hs
    obtain ⟨_,ht⟩ := Answer.ok_of_mapValue ht
    exact Session.load_alike hset hs ht disk
  | loadFile path =>
    obtain ⟨_,hs⟩ := Answer.ok_of_mapValue hs
    obtain ⟨_,ht⟩ := Answer.ok_of_mapValue ht
    exact Session.loadFile_alike hset hs ht disk
  | reset hcols hrows =>
    obtain ⟨_,hs⟩ := Answer.ok_of_mapValue hs
    obtain ⟨_,ht⟩ := Answer.ok_of_mapValue ht
    exact Session.reset_alike hset hstep hstep' hcols hrows hs ht disk

/-- Two runs lead to sessions whose engines have the same settings, and a load then succeeds on
both, or a reset while the dimensions are the same. From there on the sessions show the same, and
in the same files every sequence of operations has the same outcomes, events, views and files. -/
theorem history_erased {first first' s t : Session Scripted} {records records' : List CallRecord}
    (hfirst : first.Opened) (hfirst' : first'.Opened)
    (hs : Run Session.Finishes first records s) (ht : Run Session.Finishes first' records' t)
    (hset : s.engine.SameSettings t.engine) {c : SessionCall} (hc : c.Erases s t)
    (hdone : (c.perform s).outcome = .ok .nothing)
    (hdone' : (c.perform t).outcome = .ok .nothing) (disk : Disk) (operations : List Operation) :
    (c.perform s).session.view = (c.perform t).session.view ∧
      ((c.perform s).session.adjust (.disk disk)).watch operations =
        ((c.perform t).session.adjust (.disk disk)).watch operations := by
  -- That the sessions are in step with their engines matters to a reset only.
  have halike := perform_erases hc hset (inStep_of_run hfirst hs) (inStep_of_run hfirst' ht)
    hdone hdone' disk
  have hview := halike.view Scripted.twin_bisimulation
  rw [Session.view_disk, Session.view_disk] at hview
  exact ⟨hview,halike.watch operations⟩

/-- A reset of a loaded model and one of a model that was solved, started and failed to be
replaced. -/
theorem history_erased_reset :
    ∃ records records' s t, Run Session.Finishes (Session.create Scripted.fresh .quiet).session
        records s ∧
      Run Session.Finishes (Session.create Scripted.fresh .quiet).session records' t ∧
      records.length = 1 ∧ records'.length = 4 ∧ t.pointStatus = .feasible ∧
      s.reset.session.view = t.reset.session.view ∧
      (s.reset.session.adjust (.disk .empty)).watch [.call (.long (.solve ⟨false⟩))] =
        (t.reset.session.adjust (.disk .empty)).watch [.call (.long (.solve ⟨false⟩))] := by
  have hopen : (Session.create Scripted.fresh .quiet).session.Opened :=
    @Session.Opened.create [] .quiet rfl
  have hload : Run Session.Finishes (Session.create Scripted.fresh .quiet).session _ _ :=
    .call (.long (.load ⟨none,[.free .continuous],[]⟩)) (Session.perform_not_crashed (by decide) _)
      .start
  have hsolve := (hload.adjust (.script 7 ⟨true,false,[2],[0],[],[]⟩)).call
    (.long (.solve ⟨false⟩)) nofun
  have hstart := hsolve.call (.short (.warmStart ⟨some [1],none,none,none⟩)) nofun
  have hmissing := hstart.call (.long (.loadFile "missing")) nofun
  obtain ⟨hview,hwatch⟩ := history_erased hopen hopen hload hmissing
    ⟨rfl,rfl,rfl,rfl,rfl⟩ (.reset rfl rfl) rfl rfl .empty [.call (.long (.solve ⟨false⟩))]
  exact ⟨_,_,_,_,hload,hmissing,rfl,rfl,rfl,hview,hwatch⟩

end SolverSession
