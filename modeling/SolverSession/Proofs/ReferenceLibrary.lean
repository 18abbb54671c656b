import SolverSession.Engine.Reference
import SolverSession.Proofs.PartialChanges
import SolverSession.Proofs.WholePoints

/-!
# Sessions over the reference library

The reference library makes each change whole or not at all, and takes every mark. So a session over
it always knows how large the program is, and a call that fails leaves the program as it was unless
it is a load. A run that is optimal reports a point that is whole where it has to be, with its
value.
-/
namespace SolverSession

open Native Stage

namespace Reference

/-! ## What its calls make of the program -/

theorem passColName_whole (k : Nat) (name : String) :
    Whole program (passColName k name) (·.rename k name) := by
  intro l
  unfold passColName
  split <;> rfl

theorem adding_whole (status : CallStatus) (change : Program → Program) :
    Whole program (adding status change) change := by
  intro l
  cases status <;> rfl

def changes : Library.Changes Reference Program where
  held := program
  passed := .ofFlat
  named := fun k name p => p.rename k name
  withRows := fun b p => p.withRows b
  withCols := fun b p => p.withCols b
  marked := fun k code p => p.recode k code
  dims := fun p => (p.cols.length,p.rows.length)
  pass_taken := fun _ _ _ => rfl
  name_whole := passColName_whole
  rows_whole := fun _ => adding_whole _ _
  cols_whole := fun _ => adding_whole _ _
  mark_whole := fun _ _ _ => rfl
  dims_held := fun _ => rfl
  dims_passed := fun m => by simp [Program.ofFlat, colsOf, rowsOf]
  dims_named := fun k name p => by simp [Program.rename]
  dims_withRows := fun b p => by simp [Program.withRows, rowsOf]
  dims_withCols := fun b p => by simp [Program.withCols, colsOf]
  dims_marked := fun k code p => by simp [Program.recode]

/-- The call is about results, options or files. -/
def Quiet (primitive : Reference → CallStatus × Reference) : Prop :=
  ∀ l, (primitive l).2.program = l.program

theorem run_quiet : Quiet run := by
  intro l
  unfold run
  split
  · rfl
  · split
    · rfl
    · split
      · rfl
      · split
        · rfl
        · rfl
        · split <;> rfl

theorem setSolution_quiet (start : WarmStart) : Quiet (setSolution start) := by
  intro l
  unfold setSolution
  split <;> rfl

theorem setOption_quiet (name : String) (value : OptionValue) : Quiet (setOption name value) := by
  intro l
  unfold setOption
  split
  · split <;> rfl
  · rfl

theorem store_quiet (path text : String) (program : Option Program) :
    Quiet (store path text program) := by
  intro l
  unfold store
  split <;> rfl

/-! ## What a run reports -/

theorem length_coefficientsOf (r : Row) (n : Nat) : (coefficientsOf r n).length = n := by
  simp [coefficientsOf]

theorem profile_of_mem_choices {factor : Rat} {cols : List Col} {unknowns : List Unknown}
    (h : unknowns ∈ Program.choices factor cols) : unknowns.map Unknown.profile =
      cols.map fun c => (factor*writtenValue c.cost,decide (c.code ∈ [1,3,4])) := by
  induction cols generalizing unknowns with
  | nil =>
    obtain rfl := List.mem_singleton.mp h
    rfl
  | cons c cols ih =>
    obtain ⟨range,-,h⟩ := List.mem_flatMap.mp h
    obtain ⟨rest,hrest,rfl⟩ := List.mem_map.mp h
    rw [List.map_cons, List.map_cons, ih hrest]
    rfl

/-- The point is whole where it has to be, and has this value, which is to be small. -/
structure Program.Solves (p : Program) (value : Rat) (point : List Rat) : Prop where
  length : point.length = p.cols.length
  whole : ∀ (k : Nat) (c : Col), p.cols[k]? = some c → c.resolved.code ∈ [1,3,4] →
    IsInteger (point.getD k 0)
  value : value = p.sense.code*Inequality.product (p.cols.map fun c => writtenValue c.cost) point

theorem better_eq (v w : LinearProgram.Verdict) :
    LinearProgram.better v w = v ∨ LinearProgram.better v w = w := by
  cases v with
  | unbounded => exact .inl rfl
  | infeasible => cases w <;> exact .inr rfl
  | optimal z x =>
    cases w with
    | unbounded => exact .inr rfl
    | infeasible => exact .inl rfl
    | optimal z' x' =>
      by_cases h : z' < z
      · exact .inr (if_pos h)
      · exact .inl (if_neg h)

theorem foldl_better_eq {β : Type} (f : β → LinearProgram.Verdict) (l : List β)
    (best : LinearProgram.Verdict) :
    l.foldl (fun best x => LinearProgram.better best (f x)) best = best ∨
      ∃ x ∈ l, l.foldl (fun best x => LinearProgram.better best (f x)) best = f x := by
  induction l generalizing best with
  | nil => exact .inl rfl
  | cons x l ih =>
    rw [List.foldl_cons]
    rcases ih (LinearProgram.better best (f x)) with h | ⟨y,hy,h⟩
    · rw [h]
      exact (better_eq best (f x)).imp_right fun h => ⟨x,List.mem_cons_self,h⟩
    · exact .inr ⟨y,List.mem_cons_of_mem _ hy,h⟩

/-- The problem for one choice of the unknowns' ranges. -/
def Program.problem (p : Program) (unknowns : List Unknown) : Problem :=
  ⟨unknowns,p.rows.map fun r => ⟨coefficientsOf r p.cols.length,between r.lower r.upper⟩⟩

theorem solve_eq_optimal {p : Program} {fuel : Nat} {value : Rat} {point : List Rat}
    (h : p.solve fuel = .optimal value point) :
    ∃ unknowns ∈ Program.choices p.sense.code (p.cols.map Col.resolved),
      (p.problem unknowns).solve fuel = .optimal value point := by
  rcases foldl_better_eq (fun unknowns => (p.problem unknowns).solve fuel)
    (Program.choices p.sense.code (p.cols.map Col.resolved)) .infeasible with hnone | ⟨x,hx,hsolve⟩
  · cases hnone.symm.trans h
  · exact ⟨x,hx,hsolve.symm.trans h⟩

theorem cost_resolved (c : Col) : c.resolved.cost = c.cost := by
  unfold Col.resolved
  split_ifs <;> rfl

theorem solves_of_solve {p : Program} {fuel : Nat} {value : Rat} {point : List Rat}
    (h : p.solve fuel = .optimal value point) : p.Solves value point := by
  obtain ⟨unknowns,hmem,hsolve⟩ := solve_eq_optimal h
  have hprofile := profile_of_mem_choices hmem
  have hlength : unknowns.length = p.cols.length := by simpa using congrArg List.length hprofile
  have hsized : (p.problem unknowns).WellSized := List.forall_mem_map.mpr fun r _ =>
    (length_coefficientsOf r _).trans hlength.symm
  have hsolves := Problem.solves_of_solve hsized hsolve
  refine ⟨hsolves.length.trans hlength,fun k c hc hcode => ?_,?_⟩
  · have hk : (unknowns.map Unknown.profile)[k]? =
        some ((p.sense.code : Rat)*writtenValue c.resolved.cost,true) := by
      rw [hprofile, List.getElem?_map, List.getElem?_map, hc]
      exact congrArg (fun code => some (_,code)) (decide_eq_true hcode)
    rw [List.getElem?_map] at hk
    obtain ⟨u,hu,heq⟩ := Option.map_eq_some_iff.mp hk
    exact hsolves.whole k u hu (Prod.mk.inj heq).2
  · have hcosts : unknowns.map (·.cost) =
        (p.cols.map fun c => writtenValue c.cost).map ((p.sense.code : Rat)*·) := by
      have hfirst := congrArg (List.map Prod.fst) hprofile
      rw [List.map_map, List.map_map, List.map_map] at hfirst
      rw [List.map_map]
      refine hfirst.trans (List.map_congr_left fun c _ => ?_)
      exact congrArg (fun x => (p.sense.code : Rat)*writtenValue x) (cost_resolved c)
    have hvalue := hsolves.value
    rw [Program.problem, hcosts, Inequality.product_map_mul] at hvalue
    exact hvalue

theorem run_eq_optimal {l : Reference} : (run l).1 = .ok → (run l).2.statusCode = 7 →
    ∃ value point, l.program.solve 20000 = .optimal value point ∧
      run l = (.ok,l.optimal value point) := by
  unfold run
  split
  case isTrue => exact fun _ h => by cases h
  case isFalse =>
    split
    case isTrue => exact fun h => by cases h
    case isFalse =>
      split
      case isTrue => exact fun h => by cases h
      case isFalse =>
        split
        case h_1 => exact fun _ h => by cases h
        case h_2 => exact fun _ h => by cases h
        case h_3 value point hsolve =>
          split
          case isTrue => exact fun h => by cases h
          case isFalse => exact fun _ _ => ⟨value,point,hsolve,rfl⟩

/-- A run that is optimal reports the doubles next to a point. It is whole in every column that is
solved as one of whole numbers, and the value reported is that of the objective there. -/
theorem run_optimal {l : Reference} (hok : (run l).1 = .ok) (hcode : (run l).2.statusCode = 7) :
    ∃ point : List Rat, point.length = l.program.cols.length ∧
      (run l).2.colValue = point.map nearFloat ∧
      (∀ (k : Nat) (c : Col), l.program.cols[k]? = some c → c.resolved.code ∈ [1,3,4] →
        IsInteger (point.getD k 0)) ∧
      (run l).2.info.map (·.objectiveValue) = some (l.program.objectiveValue
        (Inequality.product (l.program.cols.map fun c => writtenValue c.cost) point)) := by
  obtain ⟨value,point,hsolve,hrun⟩ := run_eq_optimal hok hcode
  obtain ⟨hlength,hwhole,hvalue⟩ := solves_of_solve hsolve
  have hdirection : (l.program.sense.code : Rat)*l.program.sense.code = 1 := by
    cases l.program.sense <;> simp [Sense.code]
  refine ⟨point,hlength,by rw [hrun]; rfl,hwhole,?_⟩
  rw [hrun]
  change some (l.program.objectiveValue ((l.program.sense.code : Rat)*value)) = _
  rw [hvalue, ← mul_assoc, hdirection, one_mul]

/-! ## What engine calls make of it -/

variable {primitive : Reference → CallStatus × Reference}

theorem Quiet.call (h : Quiet primitive) (name : String) (s : Stage Reference) :
    (s.call name primitive).library.program = s.library.program := by
  by_cases hs : s.stopped = none
  · rw [(call_library hs name primitive).1, h]
  · rw [call_of_stopped hs]

theorem Quiet.simply (h : Quiet primitive) (name : String) (e : Native Reference) :
    (Native.simply name primitive e).engine.library.program = e.library.program := h.call name _

theorem Quiet.withPath {primitive : String → Reference → CallStatus × Reference}
    (h : ∀ path, Quiet (primitive path)) (name path : String) (e : Native Reference) :
    (Native.withPath name path primitive e).engine.library.program = e.library.program := by
  refine ((h path).call name _).trans ?_
  rw [require_library]
  rfl

theorem engine_setOption (name : String) (value : OptionValue) (e : Native Reference) :
    (Native.setOption name value e).engine.library.program = e.library.program := by
  have hquiet := setOption_quiet name value e.library
  have hchecked : (((Stage.start e.library).require (zeroIn? "option name" name)).require
      (unusable? name value)).library = e.library := by
    rw [require_library, require_library]
    rfl
  unfold Native.setOption
  dsimp only
  split
  · exact congrArg program hchecked
  · split
    case h_1 l heq =>
      rw [show setOption name value e.library = _ from heq] at hquiet
      exact hquiet
    case h_2 status l _ heq =>
      rw [show setOption name value e.library = _ from heq] at hquiet
      exact hquiet

end Reference

namespace Session

open Reference

/-- The program is the same, and so is what is known of its size. -/
structure SameProgram (s t : Session (Native Reference)) : Prop where
  program : t.engine.library.program = s.engine.library.program
  numCols : t.numCols = s.numCols
  numRows : t.numRows = s.numRows

variable {s t : Session (Native Reference)}

theorem sameProgram_refl (s : Session (Native Reference)) : SameProgram s s := ⟨rfl,rfl,rfl⟩

theorem SameProgram.engine (h : SameProgram s t) {e : Native Reference}
    (he : e.library.program = t.engine.library.program) :
    SameProgram s { t with engine := e } := ⟨he.trans h.program,h.numCols,h.numRows⟩

theorem SameProgram.counted (h : SameProgram s t) (hs : s.Counted) : t.Counted where
  numCols := h.numCols.trans (hs.numCols.trans (congrArg (·.cols.length) h.program.symm))
  numRows := h.numRows.trans (hs.numRows.trans (congrArg (·.rows.length) h.program.symm))

theorem warmStart_sameProgram (s : Session (Native Reference)) (start : WarmStart) :
    SameProgram s (s.warmStart start).session := by
  have hnext := (sameProgram_refl s).engine
    ((setSolution_quiet start).simply "Highs_setSolution" s.engine)
  unfold warmStart
  split
  · exact sameProgram_refl s
  · exact calling_cases (P := fun _ t => SameProgram s t) (fun _ => ⟨hnext.1,rfl,rfl⟩)
      (fun _ _ => hnext) (fun _ => hnext)

theorem solve_sameProgram (s : Session (Native Reference)) (options : SolveOptions) :
    SameProgram s (s.solve options).session := by
  have hnext := (sameProgram_refl s).engine (run_quiet.simply "Highs_run" s.engine)
  refine calling_cases (P := fun _ t => SameProgram s t) (fun _ => ?_) (fun _ _ => hnext)
    (fun _ => hnext)
  rw [Answer.after_session, conclude_session]
  exact ⟨hnext.1,rfl,rfl⟩

theorem reset_sameProgram (s : Session (Native Reference)) : SameProgram s s.reset.session := by
  have hquiet : Quiet Library.clearSolver := fun _ => rfl
  have hnext := (sameProgram_refl s).engine (hquiet.simply "Highs_clearSolver" s.engine)
  exact calling_cases (P := fun _ t => SameProgram s t) (fun _ => ⟨hnext.1,rfl,rfl⟩)
    (fun _ _ => hnext) (fun _ => hnext)

theorem setOptions_sameProgram (s : Session (Native Reference))
    (options : List (String × OptionValue)) : SameProgram s (s.setOptions options).session :=
  setOptions_keeps (P := SameProgram s)
    (fun t name value ht => ht.engine (engine_setOption name value t.engine))
    (sameProgram_refl s) options

theorem option_sameProgram (s : Session (Native Reference)) (name : String) :
    SameProgram s (s.option name).session := by
  unfold option
  dsimp only
  split <;> exact sameProgram_refl s

theorem withPath_sameProgram (s : Session (Native Reference)) (call : EngineCall) (method : Method)
    {primitive : String → Reference → CallStatus × Reference}
    (h : ∀ path, Quiet (primitive path)) (name path : String) :
    SameProgram s (s.calling call (Native.withPath name path primitive s.engine)
      (refusedBy method) fun s => s.succeed () []).session := by
  have hnext := (sameProgram_refl s).engine (Quiet.withPath h name path s.engine)
  exact calling_cases (P := fun _ t => SameProgram s t) (fun _ => hnext) (fun _ _ => hnext)
    (fun _ => hnext)

end Session

/-- The call replaces the program or adds to it. -/
inductive SessionCall.Rebuilds : SessionCall → Prop
  | load (model : Model Float) : Rebuilds (.long (.load model))
  | loadFile (path : String) : Rebuilds (.long (.loadFile path))
  | addConstraints (rows : List (Constraint Float)) : Rebuilds (.short (.addConstraints rows))
  | addVariables (columns : List (Column Float)) : Rebuilds (.short (.addVariables columns))

namespace Session

open Reference

variable {s : Session (Native Reference)} {c : SessionCall}

theorem perform_sameProgram (hc : ¬c.Rebuilds) : SameProgram s (c.perform s).session := by
  cases c with
  | long c =>
    cases c with
    | load model => exact absurd (.load model) hc
    | loadFile path => exact absurd (.loadFile path) hc
    | solve options => exact solve_sameProgram s options
    | writeModel path =>
      have hquiet : ∀ path, Quiet (Library.writeModel path) := fun path l => store_quiet path _ _ l
      exact withPath_sameProgram s (.writeModel path) .writeModel hquiet _ path
    | writeSolution path style =>
      have hquiet : ∀ path, Quiet fun l => Library.writeSolution path style l := fun path l =>
        store_quiet path _ _ l
      exact withPath_sameProgram s (.writeSolution path style) .writeSolution hquiet _ path
  | short c =>
    cases c with
    | addConstraints rows => exact absurd (.addConstraints rows) hc
    | addVariables columns => exact absurd (.addVariables columns) hc
    | warmStart start => exact warmStart_sameProgram s start
    | setOptions options => exact setOptions_sameProgram s options
    | option name => exact option_sameProgram s name
    | reset => exact reset_sameProgram s

theorem loadFile_counted (s : Session (Native Reference)) (path : String) :
    (s.loadFile path).session.Counted := by
  unfold loadFile
  exact calling_cases (P := fun _ t => t.Counted) (fun _ => ⟨rfl,rfl⟩) (fun _ _ => ⟨rfl,rfl⟩)
    (fun h => absurd h (Native.Stage.reply_not_crashed _))

/-- Added columns that fail are not there, since no mark is refused. -/
theorem addVariables_failed_program {columns : List (Column Float)} {cause : Failure}
    (h : (s.addVariables columns).outcome = .failed cause) :
    (s.Counted → (s.addVariables columns).session.Counted) ∧
      (s.addVariables columns).session.engine.library.program = s.engine.library.program := by
  rcases (addVariables_native changes s columns).2 cause h with hsame | ⟨batch,-,hpartly,-⟩
  · exact hsame
  · obtain ⟨done,mark,rest,-,-,⟨l,hrefused⟩,-⟩ := hpartly
    cases hrefused

theorem addVariables_counted (hs : s.Counted) (columns : List (Column Float)) :
    (s.addVariables columns).session.Counted := by
  cases houtcome : (s.addVariables columns).outcome with
  | ok => exact (addVariables_native changes s columns).1 hs houtcome
  | failed cause => exact (addVariables_failed_program houtcome).1 hs
  | crashed => exact absurd houtcome (addVariables_native_not_crashed s columns)

theorem perform_counted (hs : s.Counted) (c : SessionCall) : (c.perform s).session.Counted := by
  by_cases hc : c.Rebuilds
  · cases hc with
    | load model => exact load_counted changes hs model
    | loadFile path => exact loadFile_counted s path
    | addConstraints rows => exact (addConstraints_native changes s rows).1 hs
    | addVariables columns => exact addVariables_counted hs columns
  · exact (perform_sameProgram hc).counted hs

/-- Only a load that fails can leave another program behind. -/
theorem perform_failed_program {cause : Failure} (h : (c.perform s).outcome = .failed cause) :
    (∃ model, c = .long (.load model)) ∨ (∃ path, c = .long (.loadFile path)) ∨
      (c.perform s).session.engine.library.program = s.engine.library.program := by
  by_cases hc : c.Rebuilds
  · cases hc with
    | load model => exact .inl ⟨model,rfl⟩
    | loadFile path => exact .inr (.inl ⟨path,rfl⟩)
    | addConstraints rows =>
      have hfailed := Answer.mapValue_failed.mp (Answer.mapValue_failed.mp h)
      exact .inr (.inr ((addConstraints_native changes s rows).2 cause hfailed))
    | addVariables columns =>
      have hfailed := Answer.mapValue_failed.mp (Answer.mapValue_failed.mp h)
      exact .inr (.inr (addVariables_failed_program hfailed).2)
  · exact .inr (.inr (perform_sameProgram hc).program)

/-- All along a sequence of calls the session knows the size of the program. -/
theorem counted_of_calls (hs : s.Counted) (calls : List SessionCall) :
    (calls.foldl (fun s c => (c.perform s).session) s).Counted := by
  induction calls generalizing s with
  | nil => exact hs
  | cons c rest ih => exact ih (perform_counted hs c)

end Session
end SolverSession
