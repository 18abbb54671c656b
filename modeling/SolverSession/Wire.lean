import SolverSession.Json.Codec
import SolverSession.Model
import SolverSession.Options
import SolverSession.Diagnostics
import SolverSession.Solution

/-!
# Domain types in JSON

Each type is written as an object of its fields in declaration order and read from an object or an
array of them. Optional parts that are absent, and a Hessian without columns, are left out. A bound
may be null, which stands for the infinity of its side; no other number may.
-/
namespace SolverSession.Wire

open Json

variable (lib : Codec)

/-- A bound; null is the infinity of its side. -/
def bound? (side : Float) : Decoder Float := fun v => (lib.option? lib.float? v).map (·.getD side)

def ofBound (x : Float) : Value := if x.isFinite then lib.ofFloat x else .null

def field (name : String) (v : Value) : String × Option Value := (name,some v)

def ofFloats (xs : List Float) : Value := ofList lib.ofFloat xs

def alternative (name : String) (v : Value) : Value := .object [(some name,v)]

namespace Vector

def encode (v : SparseVec Float) : Value := ofMembers
  [field "indices" (ofList (fun n => lib.ofInt (n : Nat)) v.indices),field "values" (ofFloats lib v.values)]

def decode : Decoder (SparseVec Float) := fun v => do
  let r ← lib.record? ["indices","values"] v
  return ⟨← r.required "indices" (lib.list? lib.index?),← r.required "values" (lib.list? lib.float?)⟩

end Vector

namespace Kind

def name : VariableKind → String
  | .continuous => "continuous"
  | .integer => "integer"
  | .semiContinuous => "semi_continuous"
  | .semiInteger => "semi_integer"
  | .implicitInteger => "implicit_integer"

def all : List VariableKind :=
  [.continuous,.integer,.semiContinuous,.semiInteger,.implicitInteger]

def encode (k : VariableKind) : Value := ofString (name k)

def decode : Decoder VariableKind := fun v => do
  let n ← lib.unit? v
  all.find? (name · == n)

end Kind

namespace Variable

def encode (x : SolverSession.Variable Float) : Value := ofMembers
  [("name",x.name.map ofString),field "type" (Kind.encode x.kind),
   field "lower_bound" (ofBound lib x.lower),field "upper_bound" (ofBound lib x.upper)]

def decode : Decoder (SolverSession.Variable Float) := fun v => do
  let r ← lib.record? ["name","type","lower_bound","upper_bound"] v
  let name ← r.optional "name" (lib.option? lib.string?) none
  let kind ← r.optional "type" (Kind.decode lib) .continuous
  let lower ← r.optional "lower_bound" (bound? lib unboundedBelow) unboundedBelow
  let upper ← r.optional "upper_bound" (bound? lib unboundedAbove) unboundedAbove
  return ⟨name,kind,lower,upper⟩

end Variable

namespace Constraint

def encode (c : SolverSession.Constraint Float) : Value := ofMembers
  [field "weights" (Vector.encode lib c.weights),field "lower_bound" (ofBound lib c.lower),
   field "upper_bound" (ofBound lib c.upper)]

def decode : Decoder (SolverSession.Constraint Float) := fun v => do
  let r ← lib.record? ["weights","lower_bound","upper_bound"] v
  let weights ← r.required "weights" (Vector.decode lib)
  let lower ← r.optional "lower_bound" (bound? lib unboundedBelow) unboundedBelow
  let upper ← r.optional "upper_bound" (bound? lib unboundedAbove) unboundedAbove
  return ⟨weights,lower,upper⟩

end Constraint

namespace Column

def encode (c : SolverSession.Column Float) : Value := ofMembers
  [field "variable" (Variable.encode lib c.var),field "cost" (lib.ofFloat c.cost),
   field "weights" (Vector.encode lib c.weights)]

def decode : Decoder (SolverSession.Column Float) := fun v => do
  let r ← lib.record? ["variable","cost","weights"] v
  let var ← r.required "variable" (Variable.decode lib)
  let cost ← r.optional "cost" lib.float? 0
  let weights ← r.optional "weights" (Vector.decode lib) .empty
  return ⟨var,cost,weights⟩

end Column

namespace Objective

/-- The Hessian is left out if it has no columns. -/
def encode (o : SolverSession.Objective Float) : Value := ofMembers
  [field "is_maximization" (.bool o.maximize),field "weights" (Vector.encode lib o.weights),
   field "offset" (lib.ofFloat o.offset),
   ("hessian",if o.hessian.isEmpty then none else some (ofList (Vector.encode lib) o.hessian))]

def decode : Decoder (SolverSession.Objective Float) := fun v => do
  let r ← lib.record? ["is_maximization","weights","offset","hessian"] v
  let maximize ← r.optional "is_maximization" lib.bool? false
  let weights ← r.optional "weights" (Vector.decode lib) .empty
  let offset ← r.optional "offset" lib.float? 0
  let hessian ← r.optional "hessian" (lib.list? (Vector.decode lib)) []
  return ⟨maximize,weights,offset,hessian⟩

end Objective

namespace Model

def encode (m : SolverSession.Model Float) : Value := ofMembers
  [("objective",m.objective.map (Objective.encode lib)),
   field "variables" (ofList (Variable.encode lib) m.vars),
   field "constraints" (ofList (Constraint.encode lib) m.constraints)]

def decode : Decoder (SolverSession.Model Float) := fun v => do
  let r ← lib.record? ["objective","variables","constraints"] v
  let objective ← r.optional "objective" (lib.option? (Objective.decode lib)) none
  let vars ← r.optional "variables" (lib.list? (Variable.decode lib)) []
  let constraints ← r.optional "constraints" (lib.list? (Constraint.decode lib)) []
  return ⟨objective,vars,constraints⟩

end Model

namespace Start

def encode (s : WarmStart) : Value := ofMembers
  [("primal_columns",s.primalCols.map (ofFloats lib)),("primal_rows",s.primalRows.map (ofFloats lib)),
   ("dual_columns",s.dualCols.map (ofFloats lib)),("dual_rows",s.dualRows.map (ofFloats lib))]

def decode : Decoder WarmStart := fun v => do
  let r ← lib.record? ["primal_columns","primal_rows","dual_columns","dual_rows"] v
  let get := fun name => r.optional name (lib.option? (lib.list? lib.float?)) none
  return ⟨← get "primal_columns",← get "primal_rows",← get "dual_columns",← get "dual_rows"⟩

end Start

namespace Values

def encode (x : PointValues) : Value := ofMembers
  [field "variables" (Vector.encode lib x.vars),field "constraints" (Vector.encode lib x.constraints)]

def decode : Decoder PointValues := fun v => do
  let r ← lib.record? ["variables","constraints"] v
  return ⟨← r.required "variables" (Vector.decode lib),← r.required "constraints" (Vector.decode lib)⟩

end Values

namespace Solution

def encode (s : SolverSession.Solution) : Value := ofMembers
  [field "is_value_valid" (.bool s.isValueValid),field "is_dual_valid" (.bool s.isDualValid),
   field "primal" (Values.encode lib s.primal),("dual",s.dual.map (Values.encode lib))]

def decode : Decoder SolverSession.Solution := fun v => do
  let r ← lib.record? ["is_value_valid","is_dual_valid","primal","dual"] v
  let valueValid ← r.required "is_value_valid" lib.bool?
  let dualValid ← r.required "is_dual_valid" lib.bool?
  let primal ← r.required "primal" (Values.decode lib)
  let dual ← r.optional "dual" (lib.option? (Values.decode lib)) none
  return ⟨valueValid,dualValid,primal,dual⟩

end Solution

namespace Diagnostics

def ofInt32 (n : Int32) : Value := lib.ofInt n.toInt

def names : List String :=
  ["valid","basis_validity","primal_solution_status","dual_solution_status",
   "objective_function_value","mip_dual_bound","mip_gap","mip_node_count",
   "simplex_iteration_count","ipm_iteration_count","crossover_iteration_count",
   "qp_iteration_count","num_primal_infeasibilities","max_primal_infeasibility",
   "sum_primal_infeasibilities","num_dual_infeasibilities","max_dual_infeasibility",
   "sum_dual_infeasibilities"]

def encode (i : SolverSession.Diagnostics) : Value := ofMembers
  [field "valid" (.bool i.valid),field "basis_validity" (ofInt32 lib i.basisValidity),
   field "primal_solution_status" (ofInt32 lib i.primalSolutionStatus),
   field "dual_solution_status" (ofInt32 lib i.dualSolutionStatus),
   field "objective_function_value" (lib.ofFloat i.objectiveValue),
   field "mip_dual_bound" (lib.ofFloat i.mipDualBound),field "mip_gap" (lib.ofFloat i.mipGap),
   field "mip_node_count" (lib.ofInt i.mipNodeCount.toInt),
   field "simplex_iteration_count" (ofInt32 lib i.simplexIterations),
   field "ipm_iteration_count" (ofInt32 lib i.ipmIterations),
   field "crossover_iteration_count" (ofInt32 lib i.crossoverIterations),
   field "qp_iteration_count" (ofInt32 lib i.qpIterations),
   field "num_primal_infeasibilities" (ofInt32 lib i.numPrimalInfeasibilities),
   field "max_primal_infeasibility" (lib.ofFloat i.maxPrimalInfeasibility),
   field "sum_primal_infeasibilities" (lib.ofFloat i.sumPrimalInfeasibilities),
   field "num_dual_infeasibilities" (ofInt32 lib i.numDualInfeasibilities),
   field "max_dual_infeasibility" (lib.ofFloat i.maxDualInfeasibility),
   field "sum_dual_infeasibilities" (lib.ofFloat i.sumDualInfeasibilities)]

def decode : Decoder SolverSession.Diagnostics := fun v => do
  let r ← lib.record? names v
  let count := fun name => r.required name lib.int32?
  let number := fun name => r.required name lib.float?
  return {
    valid := ← r.required "valid" lib.bool?
    basisValidity := ← count "basis_validity"
    primalSolutionStatus := ← count "primal_solution_status"
    dualSolutionStatus := ← count "dual_solution_status"
    objectiveValue := ← number "objective_function_value"
    mipDualBound := ← number "mip_dual_bound"
    mipGap := ← number "mip_gap"
    mipNodeCount := ← r.required "mip_node_count" lib.int64?
    simplexIterations := ← count "simplex_iteration_count"
    ipmIterations := ← count "ipm_iteration_count"
    crossoverIterations := ← count "crossover_iteration_count"
    qpIterations := ← count "qp_iteration_count"
    numPrimalInfeasibilities := ← count "num_primal_infeasibilities"
    maxPrimalInfeasibility := ← number "max_primal_infeasibility"
    sumPrimalInfeasibilities := ← number "sum_primal_infeasibilities"
    numDualInfeasibilities := ← count "num_dual_infeasibilities"
    maxDualInfeasibility := ← number "max_dual_infeasibility"
    sumDualInfeasibilities := ← number "sum_dual_infeasibilities" }

end Diagnostics

namespace Status

def name : ModelStatus → String
  | .notSet => "not_set"
  | .loadError => "load_error"
  | .modelError => "model_error"
  | .presolveError => "presolve_error"
  | .solveError => "solve_error"
  | .postsolveError => "postsolve_error"
  | .modelEmpty => "model_empty"
  | .optimal => "optimal"
  | .infeasible => "infeasible"
  | .unboundedOrInfeasible => "unbounded_or_infeasible"
  | .unbounded => "unbounded"
  | .objectiveBound => "objective_bound"
  | .objectiveTarget => "objective_target"
  | .timeLimit => "time_limit"
  | .iterationLimit => "iteration_limit"
  | .unknown => "unknown"
  | .solutionLimit => "solution_limit"
  | .interrupt => "interrupt"
  | .memoryLimit => "memory_limit"
  | .unrecognized _ => "unrecognized"

/-- The name, or an object with the code where there is no other name. -/
def encode : ModelStatus → Value
  | .unrecognized code => alternative "unrecognized" (lib.ofInt code.toInt)
  | s => ofString (name s)

def decode : Decoder ModelStatus := fun v =>
  match lib.data? "unrecognized" v with
  | some code => (lib.int32? code).map .unrecognized
  | none => do
    let n ← lib.unit? v
    (ModelStatus.table.map (·.2)).find? (name · == n)

end Status

namespace PointStatus

def name : SolverSession.PointStatus → String
  | .noSolution => "no_solution"
  | .infeasible => "infeasible"
  | .feasible => "feasible"

def encode (s : SolverSession.PointStatus) : Value := ofString (name s)

def decode : Decoder SolverSession.PointStatus := fun v => do
  let n ← lib.unit? v
  [SolverSession.PointStatus.noSolution,.infeasible,.feasible].find? (name · == n)

end PointStatus

namespace OptionValue

def encode : SolverSession.OptionValue → Value
  | .bool b => .bool b
  | .int n => lib.ofInt n.toInt
  | .double x => lib.ofFloat x
  | .text s => ofString s

/-- A whole number of 64 bits is an integer, any other number a double. -/
def decode : Decoder SolverSession.OptionValue := lib.untagged?
  [fun v => (lib.bool? v).map .bool,fun v => (lib.int64? v).map .int,
   fun v => (lib.float? v).map .double,fun v => (lib.string? v).map .text]

end OptionValue

namespace SolveOptions

def encode (o : SolverSession.SolveOptions) : Value :=
  ofMembers [field "allow_non_optimal" (.bool o.allowNonOptimal)]

def decode : Decoder SolverSession.SolveOptions := fun v => do
  let r ← lib.record? ["allow_non_optimal"] v
  return ⟨← r.optional "allow_non_optimal" lib.bool? false⟩

end SolveOptions

end SolverSession.Wire
