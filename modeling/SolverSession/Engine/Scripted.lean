import SolverSession.Disk
import SolverSession.Engine

/-!
# The scripted engine

It never solves anything: a run reports the status and the solution that were scripted beforehand.
One call can be made to fail once, and one option to refuse every value. On request it keeps its
solution when rows are added and extends it by their activities.
-/
namespace SolverSession

structure Scripted where
  passed : Option (FlatModel Float)
  warmStart : Option WarmStart
  /-- Adding rows leaves a valid solution valid. -/
  keepSolution : Bool
  options : OptionTable
  numCols : Nat
  numRows : Nat
  statusCode : Int32
  info : Diagnostics
  solution : DenseSolution
  next : Option (Int32 × DenseSolution)
  /-- The call that fails next time. -/
  rejected : Option Method
  rejectedOption : Option String
  disk : Disk
deriving DecidableEq

namespace Scripted

def initialOptions : OptionTable := .ofList
  [("output_flag",.bool true),("log_to_console",.bool true),("log_file",.text ""),
   ("presolve",.text "choose"),("time_limit",.double (Float.ofBits 0x7ff0000000000000)),
   ("threads",.int 0)]

def fresh : Scripted where
  passed := none
  warmStart := none
  keepSolution := false
  options := initialOptions
  numCols := 0
  numRows := 0
  statusCode := 0
  info := .none
  solution := .none
  next := none
  rejected := none
  rejectedOption := none
  disk := .empty

/-- Lets the call fail if it is the one to be rejected, which uses the rejection up. -/
def checked (e : Scripted) (method : Method) (fails : Scripted → Scripted)
    (goesOn : Scripted → Reply Scripted) : Reply Scripted :=
  if e.rejected = some method then
    .failed "scripted rejection" (fails { e with rejected := none })
  else goesOn e

def forget (e : Scripted) : Scripted :=
  { e with statusCode := 0, info := .none, solution := .none }

def unload (e : Scripted) : Scripted :=
  { e with numCols := 0, numRows := 0, passed := none }.forget

/-- The sum of coefficients times column values, unless a coefficient has no column. -/
def activity? (values : List Float) (row : SparseVec Float) : Option Float :=
  row.entries.foldlM (fun sum (column,coefficient) =>
    (values[column]?).map fun value => sum+value*coefficient) 0

/-- Takes a model; a rejected one clears the model that was there. -/
def passModel (model : FlatModel Float) (e : Scripted) : Reply Scripted :=
  e.checked .passModel unload fun e =>
    .ok { e with numCols := model.numCols, numRows := model.numRows, passed := some model }.forget

def readModel (path : String) (e : Scripted) : Reply Scripted :=
  e.checked .readModel id fun e =>
    if e.disk.contains path then .ok e.unload else .failed s!"{path} not found" e

def writeText (path text : String) (e : Scripted) : Reply Scripted :=
  match e.disk.write path text with
  | .ok disk => .ok { e with disk := disk }
  | .error fault => .failed fault.message e

def writeModel (path : String) (e : Scripted) : Reply Scripted :=
  e.checked .writeModel id (writeText path "min\n obj: \nst\nbounds\nend\n")

def writeSolution (path : String) (e : Scripted) : Reply Scripted :=
  e.checked .writeSolution id fun e =>
    e.writeText path s!"Model status\n{(ModelStatus.ofCode e.statusCode).message}\n"

def activities (values : List Float) : List (SparseVec Float) → List Float
  | [] => []
  | row :: rows => match activity? values row with
    | none => []
    | some x => x :: activities values rows

def extend (e : Scripted) (activities : List Float) : DenseSolution :=
  { e.solution with
    rowValue := e.solution.rowValue ++ activities
    rowDual := e.solution.rowDual ++ List.replicate activities.length 0 }

/-- Appends rows. A row with a coefficient outside a solution that is kept cuts the call short; the
rows before it have their activities by then. -/
def addRows (batch : RowBatch Float) (e : Scripted) : Reply Scripted :=
  e.checked .addRows id fun e =>
    let e := { e with numRows := e.numRows+batch.size }
    if e.keepSolution && e.solution.valueValid then
      let known := activities e.solution.colValue batch.matrix.lines
      let e := { e with solution := e.extend known }
      if known.length = batch.matrix.lines.length then .ok e else ⟨.crashed,e,[]⟩
    else .ok e.forget

def addCols (batch : ColumnBatch Float) (e : Scripted) : Reply Scripted :=
  e.checked .addCols id fun e => .ok { e with numCols := e.numCols+batch.size }.forget

def infoOf (solution : DenseSolution) : Diagnostics :=
  { Diagnostics.none with
    valid := true
    basisValidity := if solution.valueValid then 1 else 0
    primalSolutionStatus := if solution.valueValid then 2 else 0
    dualSolutionStatus := if solution.dualValid then 2 else 0 }

def run (e : Scripted) : Reply Scripted :=
  e.checked .run id fun e =>
    let (code,solution) := e.next.getD (0,.none)
    .ok { e with
      next := none, statusCode := code, info := infoOf solution, solution := solution }

def setSolution (start : WarmStart) (e : Scripted) : Reply Scripted :=
  e.checked .setSolution id fun e => .ok { e with warmStart := some start }

def setOption (name : String) (value : OptionValue) (e : Scripted) : Reply Scripted :=
  e.checked .setOption id fun e =>
    if e.rejectedOption = some name then
      .failed s!"value {value.display} for {name} is out of range" e
    else .ok { e with options := e.options.insert name value }

def getOption (name : String) (e : Scripted) : Except String OptionValue :=
  match e.options.get? name with
  | some value => .ok value
  | none => .error s!"unknown option \"{name}\""

instance : Engine Scripted where
  passModel := passModel
  readModel := readModel
  writeModel := writeModel
  writeSolution := fun path _ => writeSolution path
  addRows := addRows
  addCols := addCols
  run := run
  setSolution := setSolution
  setOption := setOption
  clearSolver := fun e => e.checked .clearSolver id fun e => .ok e.forget
  optionKind := fun name e => (e.getOption name).map OptionValue.kind
  getOption := getOption
  modelStatus := statusCode
  info := info
  solution := solution
  reading := fun _ => []
  numCols := numCols
  numRows := numRows
  version := fun _ => "scripted"
  closing := fun _ => []

end Scripted
end SolverSession
