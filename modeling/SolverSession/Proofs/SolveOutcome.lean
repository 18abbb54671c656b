import SolverSession.Engine.Scripted
import SolverSession.Proofs.Calls
import SolverSession.Proofs.Compression

/-!
# What a finished run leaves

When the engine has run, the session has its status and its solution, whatever status that is and
whether or not the outcome is accepted. Whether it is accepted depends on the status, on the point
the engine holds and on what the caller is content with, and on nothing else.
-/
namespace SolverSession

/-! ## Statuses and their codes -/

namespace ModelStatus

theorem code_of_mem_table : ∀ entry ∈ table, entry.2.code = entry.1 := by decide

theorem code_ofCode (c : Int32) : (ofCode c).code = c := by
  unfold ofCode
  cases hfind : table.find? (·.1 == c) with
  | none => rfl
  | some entry =>
    have hmem := List.mem_of_find?_eq_some hfind
    have hcode : entry.1 = c := by simpa using List.find?_some hfind
    exact (code_of_mem_table entry hmem).trans hcode

theorem code_table_bounds : ∀ entry ∈ table, 0 ≤ entry.1 ∧ entry.1 ≤ 18 := by decide

theorem ofCode_of_outside {c : Int32} (hc : c < 0 ∨ 18 < c) : ofCode c = unrecognized c := by
  have hfind : table.find? (·.1 == c) = none := by
    rw [List.find?_eq_none]
    intro entry hmem heq
    obtain rfl : entry.1 = c := by simpa using heq
    obtain ⟨hlow,hhigh⟩ := code_table_bounds entry hmem
    rcases hc with hc | hc
    · exact Int32.not_lt.mpr hlow hc
    · exact Int32.not_lt.mpr hhigh hc
  simp only [ofCode, hfind]

/-- The statuses of a run that came to a limit. -/
def limits : List ModelStatus :=
  [objectiveBound,objectiveTarget,timeLimit,iterationLimit,solutionLimit,interrupt,memoryLimit]

theorem isLimit_iff {status : ModelStatus} : status.isLimit = true ↔ status ∈ limits := by
  cases status <;> simp [isLimit, limits]

end ModelStatus

theorem PointStatus.ofCode_eq_feasible_iff {code : Int32} : ofCode code = .feasible ↔ code = 2 := by
  unfold ofCode
  by_cases hone : code = 1
  · subst hone
    decide
  · by_cases htwo : code = 2
    · simp [htwo]
    · simp [hone, htwo]

/-- Any status is welcome, or the model is solved or empty, or a limit was reached with a feasible
point in hand. -/
def SolveOptions.Welcomes (options : SolveOptions) (status : ModelStatus) (pointCode : Int32) :
    Prop :=
  options.allowNonOptimal = true ∨ status = .optimal ∨ status = .modelEmpty ∨
    status ∈ ModelStatus.limits ∧ pointCode = 2

namespace SolveOptions

variable {options : SolveOptions} {status : ModelStatus} {pointCode : Int32}

theorem welcomes_iff : options.Welcomes status pointCode ↔
    (status.isSuccess (.ofCode pointCode) || options.allowNonOptimal) = true := by
  simp only [Welcomes, ModelStatus.isSuccess, Bool.or_eq_true, Bool.and_eq_true, decide_eq_true_eq,
    ModelStatus.isLimit_iff, PointStatus.ofCode_eq_feasible_iff]
  constructor
  · rintro (hallow | hoptimal | hempty | hlimit)
    · exact .inr hallow
    · exact .inl (.inl (.inl hoptimal))
    · exact .inl (.inl (.inr hempty))
    · exact .inl (.inr hlimit)
  · rintro (((hoptimal | hempty) | hlimit) | hallow)
    · exact .inr (.inl hoptimal)
    · exact .inr (.inr (.inl hempty))
    · exact .inr (.inr (.inr hlimit))
    · exact .inl hallow

theorem accept_welcome (h : options.Welcomes status pointCode) :
    options.accept status (.ofCode pointCode) = .ok () :=
  if_pos (welcomes_iff.mp h)

theorem accept_unwelcome (h : ¬options.Welcomes status pointCode) :
    options.accept status (.ofCode pointCode) = .error (.nonOptimal status) :=
  if_neg fun hsuccess => h (welcomes_iff.mpr hsuccess)

theorem not_welcomes_unrecognized {code : Int32} (h : options.allowNonOptimal = false) :
    ¬options.Welcomes (.unrecognized code) pointCode := by
  simp [Welcomes, h, ModelStatus.limits]

end SolveOptions

/-! ## Captured solutions -/

/-- Expanded to the lengths of the lists, the values are those of the lists, a zero without its
sign. -/
structure PointValues.Reproduces (v : PointValues) (cols rows : List Float) : Prop where
  vars : v.vars.toDense cols.length = cols.map plainZero
  constraints : v.constraints.toDense rows.length = rows.map plainZero

theorem PointValues.ofDense_reproduces (cols rows : List Float) :
    (ofDense cols rows).Reproduces cols rows :=
  ⟨SparseVec.toDense_ofDense_float cols,SparseVec.toDense_ofDense_float rows⟩

/-- The solution is the valid part of what an engine reports. -/
structure Solution.Captures (x : Solution) (raw : DenseSolution) : Prop where
  valueValid : x.isValueValid = raw.valueValid
  dualValid : x.isDualValid = raw.dualValid
  primal : raw.valueValid = true → x.primal.Reproduces raw.colValue raw.rowValue
  noPrimal : raw.valueValid = false → x.primal = .empty
  dualIsSome : x.dual.isSome = raw.dualValid
  dual : ∀ dual ∈ x.dual, dual.Reproduces raw.colDual raw.rowDual

theorem Solution.ofEngine_captures (raw : DenseSolution) : (ofEngine raw).Captures raw where
  valueValid := rfl
  dualValid := rfl
  primal := by
    intro h
    simp only [ofEngine, h, if_true]
    exact PointValues.ofDense_reproduces _ _
  noPrimal := by
    intro h
    simp [ofEngine, h]
  dualIsSome := by
    cases h : raw.dualValid <;> simp [ofEngine, h]
  dual := by
    intro dual hdual
    simp only [ofEngine] at hdual
    split at hdual
    · obtain rfl := Option.some.inj hdual
      exact PointValues.ofDense_reproduces _ _
    · cases hdual

/-! ## The solve -/

namespace Session

variable {σ : Type}

theorem conclude_welcome {s : Session σ} {options : SolveOptions} {pointCode : Int32}
    (h : options.Welcomes s.status pointCode) :
    (s.conclude (.ofCode pointCode) options).outcome = .ok s.status := by
  simp [conclude, SolveOptions.accept_welcome h]

theorem conclude_unwelcome {s : Session σ} {options : SolveOptions} {pointCode : Int32}
    (h : ¬options.Welcomes s.status pointCode) :
    (s.conclude (.ofCode pointCode) options).outcome = .failed (.nonOptimal s.status) := by
  simp [conclude, SolveOptions.accept_unwelcome h]

variable [Engine σ]

def afterRun (s : Session σ) : Session σ :=
  { s with engine := (Engine.run s.engine).engine }.solved

/-- What a session remembers after a run is what the engine reports then. -/
structure ReportsRun (s t : Session σ) : Prop where
  engine : t.engine = (Engine.run s.engine).engine
  dims : t.numCols = s.numCols ∧ t.numRows = s.numRows
  code : t.status.code = Engine.modelStatus t.engine
  outside : Engine.modelStatus t.engine < 0 ∨ 18 < Engine.modelStatus t.engine →
    t.status = .unrecognized (Engine.modelStatus t.engine)
  solution : t.solution.Captures (Engine.solution t.engine)

theorem afterRun_reports (s : Session σ) : s.ReportsRun s.afterRun where
  engine := rfl
  dims := ⟨rfl,rfl⟩
  code := ModelStatus.code_ofCode _
  outside := ModelStatus.ofCode_of_outside
  solution := Solution.ofEngine_captures _

variable {s : Session σ} (options : SolveOptions)

theorem solve_session (h : (Engine.run s.engine).outcome = .ok ()) :
    (s.solve options).session = s.afterRun := by
  unfold solve
  rw [calling_ok h, Answer.after_session, Answer.after_session, conclude_session]
  rfl

theorem solve_outcome (h : (Engine.run s.engine).outcome = .ok ()) :
    (s.solve options).outcome = (s.afterRun.conclude
      (.ofCode (Engine.info s.afterRun.engine).primalSolutionStatus) options).outcome := by
  unfold solve
  rw [calling_ok h]
  rfl

/-- Over every engine, when the run succeeds: what is left does not depend on the options, and it is
the status and the solution that the engine reports then. The solve returns the status if it is
welcome and fails with it if it is not; a code without a name is welcome only if every status is. -/
theorem solve_captures_run (h : (Engine.run s.engine).outcome = .ok ()) :
    ∃ t : Session σ, s.ReportsRun t ∧ ∀ options : SolveOptions,
      let code := Engine.modelStatus t.engine
      let pointCode := (Engine.info t.engine).primalSolutionStatus
      (s.solve options).session = t ∧
      (options.Welcomes t.status pointCode → (s.solve options).outcome = .ok t.status) ∧
      (¬options.Welcomes t.status pointCode →
        (s.solve options).outcome = .failed (.nonOptimal t.status)) ∧
      (options.allowNonOptimal = false → code < 0 ∨ 18 < code →
        (s.solve options).outcome = .failed (.nonOptimal (.unrecognized code))) := by
  refine ⟨s.afterRun,s.afterRun_reports,fun options => ?_⟩
  have hunwelcome : ¬options.Welcomes s.afterRun.status
      (Engine.info s.afterRun.engine).primalSolutionStatus →
      (s.solve options).outcome = .failed (.nonOptimal s.afterRun.status) := by
    intro hnot
    rw [solve_outcome options h, conclude_unwelcome hnot]
  refine ⟨solve_session options h,?_,hunwelcome,?_⟩
  · intro hwelcome
    rw [solve_outcome options h, conclude_welcome hwelcome]
  · intro hallow hcode
    have hstatus := s.afterRun_reports.outside hcode
    rw [← hstatus]
    refine hunwelcome ?_
    rw [hstatus]
    exact SolveOptions.not_welcomes_unrecognized hallow

/-- The time is up with a feasible point in hand, and there are no dual values. -/
theorem solve_captures_run_time_limit :
    let raw : DenseSolution := ⟨true,false,[negativeZero,2.5],[1,1],[4],[0.5]⟩
    let s : Session Scripted :=
      ⟨{ Scripted.fresh with next := some (13,raw) },.notSet,2,1,some .empty⟩
    ∃ t : Session Scripted, (∀ options, (s.solve options).session = t) ∧
      (s.solve ⟨false⟩).outcome = .ok .timeLimit ∧ t.solution.primal.vars.toDense 2 = [0,2.5] ∧
      t.solution.primal.constraints.toDense 1 = [4] ∧ t.solution.dual.isSome = false := by
  intro raw s
  have hrun : (Engine.run s.engine).outcome = .ok () := rfl
  obtain ⟨t,hreports,hsolve⟩ := solve_captures_run hrun
  obtain rfl := (hsolve ⟨false⟩).1
  obtain ⟨hvars,hconstraints⟩ := hreports.solution.primal rfl
  have hvalues : [negativeZero,2.5].map plainZero = [0,2.5] := by decide
  have hactivity : [(4 : Float)].map plainZero = [4] := by decide
  have hlimit : ModelStatus.timeLimit ∈ ModelStatus.limits := by simp [ModelStatus.limits]
  exact ⟨_,fun options => (hsolve options).1,
    (hsolve ⟨false⟩).2.1 (.inr (.inr (.inr ⟨hlimit,rfl⟩))),hvars.trans hvalues,
    hconstraints.trans hactivity,hreports.solution.dualIsSome⟩

end Session
end SolverSession
