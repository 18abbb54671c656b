import SolverSession.Disk
import SolverSession.Engine.Native
import SolverSession.Problem

/-!
# The reference library

A library of primitive calls that solves small linear programs exactly. It assesses what it is
given: bounds that leave no value and coefficients that are too large are errors, bounds that
contradict each other and coefficients too small to matter are worth a warning, and the latter are
dropped. Any change to the model makes it forget its results. A semi-continuous column is zero or
lies in its range; one whose range starts at zero is an ordinary column.
-/
namespace SolverSession

namespace Reference

structure Col where
  cost : Float
  lower : Float
  upper : Float
  code : Nat
  name : String
deriving DecidableEq

structure Row where
  lower : Float
  upper : Float
  entries : List (Nat × Float)
deriving DecidableEq

structure Program where
  cols : List Col
  rows : List Row
  sense : Sense
  offset : Float
  quadratic : Bool
deriving DecidableEq

def Program.empty : Program := ⟨[],[],.minimize,0,false⟩

inductive OptionRange where
  | any
  | oneOf (texts : List String)
  | integers (low high : Int)
  | atLeast (low : Float)

def OptionRange.admits : OptionRange → OptionValue → Bool
  | .oneOf texts, .text s => s ∈ texts
  | .integers low high, .int n => low ≤ n.toInt && n.toInt ≤ high
  | .atLeast low, .double x => !(x < low)
  | _, _ => true

def largestInteger : Int := 0x7fffffff

def optionRules : List (String × OptionValue × OptionRange) :=
  [("presolve",.text "choose",.oneOf ["off","choose","on"]),
   ("solver",.text "choose",.oneOf ["simplex","choose","ipm","ipx","hipo","pdlp","qpasm"]),
   ("parallel",.text "choose",.oneOf ["off","choose","on"]),
   ("time_limit",.double unboundedAbove,.atLeast 0),
   ("mip_rel_gap",.double (Float.ofScientific 1 true 4),.atLeast 0),
   ("threads",.int 0,.integers 0 largestInteger),
   ("random_seed",.int 0,.integers 0 largestInteger),
   ("simplex_strategy",.int 1,.integers 0 4),
   ("output_flag",.bool true,.any),
   ("log_to_console",.bool true,.any),
   ("log_file",.text "",.any)]

end Reference

open Reference in
structure Reference where
  program : Program
  statusCode : Int32
  info : Option Diagnostics
  colValue : List Float
  rowValue : List Float
  options : OptionTable
  disk : Disk
  /-- The models that were written, by the places of their files. -/
  saved : List (Location × Program)
deriving DecidableEq

namespace Reference

def fresh : Reference where
  program := .empty
  statusCode := 0
  info := none
  colValue := []
  rowValue := []
  options := .ofList (optionRules.map fun (name,value,_) => (name,value))
  disk := .empty
  saved := []

def forget (l : Reference) : Reference :=
  { l with statusCode := 0, info := none, colValue := [], rowValue := [] }

def load (l : Reference) (p : Program) : Reference := { l with program := p }.forget

def infiniteBound : Float := Float.ofScientific 1 false 20

def senseless (lower upper : Float) : Bool := !(lower < infiniteBound) || !(upper > -infiniteBound)

def largestCoefficient : Float := Float.ofScientific 1 false 15

def negligible : Float := Float.ofScientific 1 true 9

def assess (bounds : List (Float × Float)) (coefficients : List Float) : CallStatus :=
  if bounds.any (fun (lower,upper) => senseless lower upper)
      || coefficients.any (fun x => x.abs > largestCoefficient) then .error
  else if bounds.any (fun (lower,upper) => lower > upper)
      || coefficients.any (fun x => x != 0 && x.abs ≤ negligible) then .warning
  else .ok

def significant (entries : List (Nat × Float)) : List (Nat × Float) :=
  entries.filter fun (_,x) => !(x.abs ≤ negligible)

def rowsOf (count : Nat) (lower upper : List Float) (matrix : StackedMatrix Float) : List Row :=
  (List.range count).map fun k =>
    ⟨lower.getD k 0,upper.getD k 0,significant ((matrix.line? k).getD .empty).entries⟩

def colsOf (first count : Nat) (costs lower upper : List Float) (codes : List Nat) : List Col :=
  (List.range count).map fun k =>
    ⟨costs.getD k 0,lower.getD k 0,upper.getD k 0,codes.getD k 0,s!"c{first+k}"⟩

/-- Columns with this code may be zero besides what their bounds say. -/
def maybeZero (code : Nat) : Bool := code = 2 ∨ code = 3

/-- How the load of a model ends. Bounds that contradict each other are worth no warning where a
column may be zero, and nothing is worth one where there are no columns. -/
def assessModel (m : FlatModel Float) (codes : List Nat) : CallStatus :=
  let cols := m.colLower.zip m.colUpper
  let rows := m.rowLower.zip m.rowUpper
  let plain := ((cols.zip codes).filter fun (_,code) => !maybeZero code).map (·.1)
  match assess (cols ++ rows) m.rows.values with
  | .warning => if cols.isEmpty then .ok else assess (plain ++ rows) m.rows.values
  | status => status

def codesOf (m : FlatModel Float) : List Nat := m.integrality.getD (List.replicate m.numCols 0)

def Program.ofFlat (m : FlatModel Float) : Program where
  cols := colsOf 0 m.numCols m.colCost m.colLower m.colUpper (codesOf m)
  rows := rowsOf m.numRows m.rowLower m.rowUpper m.rows
  sense := m.sense
  offset := m.offset
  quadratic := m.hessian.isSome

/-- Takes a model. One that is refused is there all the same. -/
def passModel (m : FlatModel Float) (l : Reference) : CallStatus × Reference :=
  (assessModel m (codesOf m),l.load (.ofFlat m))

def Program.rename (p : Program) (k : Nat) (name : String) : Program :=
  { p with cols := p.cols.modify k fun c => { c with name := name } }

def Program.recode (p : Program) (k code : Nat) : Program :=
  { p with cols := p.cols.modify k fun c => { c with code := code } }

def Program.withRows (p : Program) (b : RowBatch Float) : Program :=
  { p with rows := p.rows ++ rowsOf b.size b.lower b.upper b.matrix }

def Program.withCols (p : Program) (b : ColumnBatch Float) : Program :=
  let first := p.cols.length
  let entries := b.matrix.lines.zipIdx.flatMap fun (line,k) =>
    (significant line.entries).map fun (row,x) => (row,(first+k,x))
  { p with
    cols := p.cols ++ colsOf first b.size b.costs b.lower b.upper []
    rows := p.rows.zipIdx.map fun (r,k) =>
      { r with entries := r.entries ++ (entries.filter (·.1 = k)).map (·.2) } }

def passColName (k : Nat) (name : String) (l : Reference) : CallStatus × Reference :=
  if name = "" then (.error,l) else (.ok,{ l with program := l.program.rename k name })

def adding (status : CallStatus) (f : Program → Program) (l : Reference) : CallStatus × Reference :=
  match status with
  | .error => (.error,l)
  | status => (status,l.load (f l.program))

def addRows (b : RowBatch Float) (l : Reference) : CallStatus × Reference :=
  l.adding (assess (b.lower.zip b.upper) b.matrix.values) (·.withRows b)

def addCols (b : ColumnBatch Float) (l : Reference) : CallStatus × Reference :=
  l.adding (assess (b.lower.zip b.upper) b.matrix.values) (·.withCols b)

def changeColIntegrality (k code : Nat) (l : Reference) : CallStatus × Reference :=
  (.ok,l.load (l.program.recode k code))

def store (path text : String) (program : Option Program) (l : Reference) :
    CallStatus × Reference :=
  match l.disk.locate path, l.disk.write path text with
  | .ok place, .ok disk => (.ok,{ l with
      disk := disk
      saved := (program.map fun p => (place,p)).toList ++ l.saved.filter (·.1 ≠ place) })
  | _, _ => (.error,l)

/-- The outline of a model says something of column `k`: it has a cost, a coefficient, a type or
bounds of its own. -/
def Program.speaksOf (p : Program) (k : Nat) (c : Col) : Bool :=
  c.cost != 0 || c.code ≠ 0 || c.lower != 0 || c.upper < infiniteBound
    || p.rows.any (·.entries.any (·.1 = k))

def outline (p : Program) : String :=
  let direction := match p.sense with
    | .minimize => "min"
    | .maximize => "max"
  let named := p.cols.zipIdx.filter fun (c,k) => p.speaksOf k c
  s!"{direction}\n obj:\nst\nbounds\n"
    ++ String.join (named.map fun (c,_) => s!" {c.name}\n") ++ "end\n"

def between (lower upper : Float) : Interval :=
  ⟨if lower > -infiniteBound then some (writtenValue lower) else none,
    if upper < infiniteBound then some (writtenValue upper) else none⟩

def coefficientsOf (r : Row) (n : Nat) : List Rat :=
  (List.range n).map fun j =>
    (r.entries.filter (·.1 = j)).foldl (fun sum e => sum+writtenValue e.2) 0

def largestMaybeZero : Float := Float.ofScientific 1 false 5

/-- A column that may be zero is refused if its bounds reach below zero, or if they lie too high. -/
def Col.refused (c : Col) : Bool :=
  maybeZero c.code && c.lower ≤ c.upper
    && (c.lower < 0 || (c.upper > largestMaybeZero && 10*c.lower > largestMaybeZero))

def Col.capped (c : Col) : Bool :=
  maybeZero c.code && c.lower ≤ c.upper && c.lower != 0 && c.upper > largestMaybeZero

/-- The column as it is solved. One that may be zero, and whose bounds start there, is ordinary; if
its bounds contradict each other, zero is all it may be. -/
def Col.resolved (c : Col) : Col :=
  if !maybeZero c.code then c
  else if c.lower > c.upper then { c with code := 0, lower := 0, upper := 0 }
  else if c.lower == 0 then { c with code := if c.code = 3 then 1 else 0 }
  else if c.capped then { c with upper := largestMaybeZero }
  else c

def Col.ranges (c : Col) : List Interval :=
  if maybeZero c.code then [.point 0,between c.lower c.upper] else [between c.lower c.upper]

def Program.choices (factor : Rat) : List Col → List (List Unknown)
  | [] => [[]]
  | c :: cols => c.ranges.flatMap fun range => (choices factor cols).map fun unknowns =>
    ⟨factor*writtenValue c.cost,range,c.code ∈ [1,3,4]⟩ :: unknowns

def Program.solve (p : Program) (fuel : Nat) : LinearProgram.Verdict :=
  let bands := p.rows.map fun r => ⟨coefficientsOf r p.cols.length,between r.lower r.upper⟩
  (choices p.sense.code (p.cols.map Col.resolved)).foldl (fun best unknowns =>
    LinearProgram.better best (Problem.solve ⟨unknowns,bands⟩ fuel)) .infeasible

/-- The value of the objective, given that of its linear part. An offset that is not finite leaves
nothing else. -/
def Program.objectiveValue (p : Program) (linear : Rat) : Float :=
  if p.offset.isFinite then nearFloat (linear+writtenValue p.offset)
  else nearFloat linear+p.offset

def optimal (l : Reference) (value : Rat) (point : List Rat) : Reference :=
  let p := l.program
  let factor : Rat := p.sense.code
  let discrete := p.cols.any (·.resolved.code ≠ 0)
  { l with
    statusCode := 7
    info := some { Diagnostics.none with
      valid := true
      basisValidity := if discrete then 0 else 1
      primalSolutionStatus := 2
      dualSolutionStatus := if discrete then 0 else 2
      objectiveValue := p.objectiveValue (factor*value) }
    colValue := point.map nearFloat
    rowValue := p.rows.map fun r =>
      nearFloat (Inequality.product (coefficientsOf r p.cols.length) point) }

def pointless (l : Reference) (code : Int32) : Reference :=
  { l.forget with statusCode := code, info := some { Diagnostics.none with valid := true } }

def failed (l : Reference) : Reference := { l.forget with statusCode := 4 }

/-- A point that lies at a bound which is not the column's own proves nothing. -/
def Program.provesNothing (p : Program) (point : List Rat) : Bool :=
  (p.cols.zip point).any fun (c,x) => c.capped && x == writtenValue largestMaybeZero

/-- Solves the model. Quadratic objectives are beyond it. -/
def run (l : Reference) : CallStatus × Reference :=
  if l.program.cols.isEmpty then (.ok,l.pointless 6)
  else if l.program.quadratic then (.error,l)
  else if l.program.cols.any Col.refused then (.error,l.failed)
  else match l.program.solve 20000 with
    | .infeasible => (.ok,l.pointless 8)
    | .unbounded => (.ok,l.pointless 10)
    | .optimal value point =>
      if l.program.provesNothing point then (.error,l.failed) else (.ok,l.optimal value point)

/-- Takes a starting point that says something of the columns, or of the duals of the rows. The
diagnostics are gone, the status stays. -/
def setSolution (start : WarmStart) (l : Reference) : CallStatus × Reference :=
  if (start.primalCols.isSome && !l.program.cols.isEmpty)
      || (start.dualRows.isSome && !l.program.rows.isEmpty) then (.ok,{ l with info := none })
  else (.error,l)

def setOption (name : String) (value : OptionValue) (l : Reference) : CallStatus × Reference :=
  match optionRules.lookup name with
  | some (initial,range) =>
    if value.kind = initial.kind && range.admits value then
      (.ok,{ l with options := l.options.insert name value })
    else (.error,l)
  | none => (.error,l)

instance : Library Reference where
  passModel := passModel
  passColName := passColName
  readModel := fun path l => match l.disk.locate path with
    | .error _ => (.error,l)
    | .ok place => match l.saved.lookup place with
      | some program => (.ok,l.load program)
      | none => (.error,l)
  writeModel := fun path l => l.store path (outline l.program) (some l.program)
  writeSolution := fun path _ l =>
    l.store path s!"Model status\n{(ModelStatus.ofCode l.statusCode).message}\n" none
  addRows := addRows
  addCols := addCols
  changeColIntegrality := changeColIntegrality
  run := run
  setSolution := setSolution
  setOption := setOption
  clearSolver := fun l => (.ok,l.forget)
  modelStatus := statusCode
  info := info
  point := fun l =>
    some (l.colValue,l.colValue.map fun _ => 0,l.rowValue,l.rowValue.map fun _ => 0)
  optionType := fun name l => (l.options.get? name).map OptionValue.kind
  optionValue := fun name l => l.options.get? name
  numCols := fun l => l.program.cols.length
  numRows := fun l => l.program.rows.length
  version := fun _ => "1.15.0"

end Reference
end SolverSession
