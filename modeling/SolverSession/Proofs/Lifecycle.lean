import SolverSession.Proofs.Runs

/-!
# The model in the course of a run

After every call, whatever its outcome, dimensions and status are those of the engine, and the
dimensions are accounted for: they are those of the last load with everything added since.
-/
namespace SolverSession

namespace Effect

/-- The dimensions of the model that a load left behind. -/
def loaded? : Effect → Option (Nat × Nat)
  | load numCols numRows => some (numCols,numRows)
  | _ => Option.none

def addedCols : Effect → Nat
  | cols count => count
  | _ => 0

def addedRows : Effect → Nat
  | rows count => count
  | _ => 0

/-- The dimensions of the last load, the latest effect being the first. -/
def lastLoad (effects : List Effect) : Nat × Nat := (effects.findSome? loaded?).getD (0,0)

def sinceLoad (effects : List Effect) : List Effect := effects.takeWhile (·.loaded?.isNone)

def totalCols (effects : List Effect) : Nat :=
  (lastLoad effects).1+((sinceLoad effects).map addedCols).sum

def totalRows (effects : List Effect) : Nat :=
  (lastLoad effects).2+((sinceLoad effects).map addedRows).sum

variable {x : Effect} (effects : List Effect)

theorem totals_load {dims : Nat × Nat} (h : x.loaded? = some dims) :
    totalCols (x :: effects) = dims.1 ∧ totalRows (x :: effects) = dims.2 := by
  simp [totalCols, totalRows, lastLoad, sinceLoad, h]

theorem totals_add (h : x.loaded? = Option.none) :
    totalCols (x :: effects) = totalCols effects+x.addedCols ∧
      totalRows (x :: effects) = totalRows effects+x.addedRows := by
  simp only [totalCols, totalRows, lastLoad, sinceLoad, List.findSome?_cons, h,
    List.takeWhile_cons, Option.isNone_none, if_true, List.map_cons, List.sum_cons]
  omega

end Effect

namespace Session

/-- What is remembered of the model agrees with the engine. -/
structure InStep (s : Session Scripted) : Prop where
  numCols : s.numCols = s.engine.numCols
  numRows : s.numRows = s.engine.numRows
  status : s.status = .ofCode s.engine.statusCode

variable {s t : Session Scripted} {x : Effect}

theorem InStep.sameReports (h : s.InStep) {e : Scripted} (he : s.engine.SameReports e) :
    InStep { s with engine := e } :=
  ⟨h.numCols.trans he.numCols.symm,h.numRows.trans he.numRows.symm,
    h.status.trans (congrArg ModelStatus.ofCode he.statusCode.symm)⟩

theorem InStep.refresh (hcols : s.numCols = s.engine.numCols)
    (hrows : s.numRows = s.engine.numRows) : s.refresh.1.InStep := by
  obtain ⟨hc,hr⟩ := refresh_dims s
  refine ⟨?_,?_,?_⟩
  · rw [hc, refresh_engine, hcols]
  · rw [hr, refresh_engine, hrows]
  · rw [refresh_status, refresh_engine]
    rfl

theorem Opened.inStep (h : Opened s) : s.InStep := by
  obtain ⟨e,he,rfl⟩ := h.reports
  exact ⟨he.numCols.symm,he.numRows.symm,by rw [he.statusCode]; rfl⟩

theorem advance_inStep (hs : s.InStep) (h : s.Advance x t) : t.InStep := by
  cases h with
  | none he => exact hs.sameReports he
  | load hcols hrows he => exact ⟨hcols.symm,hrows.symm,by rw [he.statusCode]; rfl⟩
  | drop he => exact ⟨rfl,rfl,rfl⟩
  | rows he =>
    refine .refresh ?_ ?_
    · exact hs.numCols.trans he.numCols.symm
    · rw [he.numRows, hs.numRows]
  | cols hcols hrows he =>
    refine .refresh ?_ ?_
    · rw [hcols, hs.numCols]
    · exact hs.numRows.trans hrows.symm
  | start he hstart =>
    exact ⟨hs.numCols.trans he.numCols.symm,hs.numRows.trans he.numRows.symm,
      hs.status.trans (congrArg ModelStatus.ofCode he.statusCode.symm)⟩
  | solve hrun hnext hcols hrows hcode hinfo hsolution =>
    exact ⟨hs.numCols.trans hcols.symm,hs.numRows.trans hrows.symm,rfl⟩
  | reset hcols hrows he =>
    exact ⟨hs.numCols.trans hcols.symm,hs.numRows.trans hrows.symm,by rw [he.statusCode]; rfl⟩

theorem advance_loaded {dims : Nat × Nat} (hx : x.loaded? = some dims) (h : s.Advance x t) :
    t.numCols = dims.1 ∧ t.numRows = dims.2 := by
  cases h with
  | load hcols hrows he =>
    obtain rfl := Option.some.inj hx
    exact ⟨rfl,rfl⟩
  | _ => cases hx

theorem advance_added (hs : s.InStep) (hx : x.loaded? = Option.none) (h : s.Advance x t) :
    t.numCols = s.numCols+x.addedCols ∧ t.numRows = s.numRows+x.addedRows := by
  cases h with
  | none he => exact ⟨rfl,rfl⟩
  | load hcols hrows he => cases hx
  | drop he => exact ⟨he.numCols.trans hs.numCols.symm,he.numRows.trans hs.numRows.symm⟩
  | rows he => exact refresh_dims _
  | cols hcols hrows he => exact refresh_dims _
  | start he hstart => exact ⟨rfl,rfl⟩
  | solve hrun hnext hcols hrows hcode hinfo hsolution => exact ⟨rfl,rfl⟩
  | reset hcols hrows he => exact ⟨rfl,rfl⟩

theorem advance_totals {effects : List Effect} (hs : s.InStep)
    (hcols : s.numCols = Effect.totalCols effects) (hrows : s.numRows = Effect.totalRows effects)
    (h : s.Advance x t) : t.numCols = Effect.totalCols (x :: effects) ∧
      t.numRows = Effect.totalRows (x :: effects) := by
  cases hx : x.loaded? with
  | some dims =>
    obtain ⟨hc,hr⟩ := Effect.totals_load effects hx
    rw [hc, hr]
    exact advance_loaded hx h
  | none =>
    obtain ⟨hc,hr⟩ := Effect.totals_add effects hx
    rw [hc, hr, ← hcols, ← hrows]
    exact advance_added hs hx h

end Session

theorem inStep_of_run {first s : Session Scripted} {records : List CallRecord}
    (hfirst : first.Opened) (hrun : Run Session.Finishes first records s) : s.InStep := by
  induction hrun with
  | start => exact hfirst.inStep
  | adjust x h ih => exact ih.sameReports (Scripted.sameReports_adjust _ x)
  | call c hc h ih => exact Session.advance_inStep ih (Session.perform_advance hc)

/-- In every run without a call that is cut short, dimensions and status are those of the engine
after every call, and the dimensions are those of the last load and of what was added since. -/
theorem run_in_step {first s : Session Scripted} {records : List CallRecord}
    (hfirst : first.Opened)
    (hrun : Run Session.Finishes first records s) :
    s.numCols = Engine.numCols s.engine ∧ s.numRows = Engine.numRows s.engine ∧
      s.status = .ofCode (Engine.modelStatus s.engine) ∧
      s.numCols = Effect.totalCols (records.map (·.effect)) ∧
      s.numRows = Effect.totalRows (records.map (·.effect)) := by
  -- The account alone is no invariant: a failed load reads the dimensions off the engine.
  suffices hall : s.InStep ∧ s.numCols = Effect.totalCols (records.map (·.effect)) ∧
      s.numRows = Effect.totalRows (records.map (·.effect)) from
    ⟨hall.1.numCols,hall.1.numRows,hall.1.status,hall.2⟩
  induction hrun with
  | start =>
    have hstep := hfirst.inStep
    obtain ⟨e,he,rfl⟩ := hfirst.reports
    exact ⟨hstep,rfl,rfl⟩
  | adjust y h ih =>
    exact ⟨ih.1.sameReports (Scripted.sameReports_adjust _ y),ih.2⟩
  | call c hc h ih =>
    obtain ⟨hs,hcols,hrows⟩ := ih
    have hadvance := Session.perform_advance hc
    exact ⟨Session.advance_inStep hs hadvance,
      Session.advance_totals hs hcols hrows hadvance⟩

/-- A column is refused once and then taken, after a model with one. -/
theorem run_in_step_refused_column :
    ∃ records s, Run Session.Finishes (Session.create Scripted.fresh .quiet).session records s ∧
      records.length = 3 ∧ s.numCols = 2 ∧ Engine.numCols s.engine = 2 := by
  have hopen : (Session.create Scripted.fresh .quiet).session.Opened :=
    @Session.Opened.create [] .quiet rfl
  have hload : Run Session.Finishes (Session.create Scripted.fresh .quiet).session _ _ :=
    .call (.long (.load ⟨none,[.free .continuous],[.free .empty]⟩))
      (Session.perform_not_crashed (by decide) _) .start
  have hrefused := (hload.adjust (.reject .addCols)).call
    (.short (.addVariables [⟨.free .continuous,1,.empty⟩])) nofun
  have htaken := hrefused.call (.short (.addVariables [⟨.free .continuous,1,.empty⟩])) nofun
  obtain ⟨hcols,-,-,htotal,-⟩ := run_in_step hopen htaken
  have htwo := htotal.trans (b := 2) rfl
  exact ⟨_,_,htaken,rfl,htwo,hcols.symm.trans htwo⟩

end SolverSession
