import SolverSession.Engine

/-!
# Engines over a native library

A library of primitive calls answers each with success, a warning or an error. The engine built on
it turns arguments into the library's integers and zero-terminated texts, makes the calls one after
the other, writes warnings to the log and stops at the first error. What a call has done before an
error stays done: names and integer marks are passed after the model or the columns they belong to.
-/
namespace SolverSession

inductive CallStatus where
  | ok
  | warning
  | error
deriving DecidableEq

/-- Library states and the primitive calls on them. Texts hold no zero character and integers fit in
32 bits. -/
class Library (ν : Type) where
  passModel : FlatModel Float → ν → CallStatus × ν
  passColName : Nat → String → ν → CallStatus × ν
  readModel : String → ν → CallStatus × ν
  writeModel : String → ν → CallStatus × ν
  writeSolution : String → ReportStyle → ν → CallStatus × ν
  addRows : RowBatch Float → ν → CallStatus × ν
  addCols : ColumnBatch Float → ν → CallStatus × ν
  changeColIntegrality : Nat → Nat → ν → CallStatus × ν
  run : ν → CallStatus × ν
  setSolution : WarmStart → ν → CallStatus × ν
  setOption : String → OptionValue → ν → CallStatus × ν
  clearSolver : ν → CallStatus × ν
  modelStatus : ν → Int32
  info : ν → Option Diagnostics
  /-- Column values, column duals, row values and row duals, unless this is an error. -/
  point : ν → Option (List Float × List Float × List Float × List Float)
  optionType : String → ν → Option OptionKind
  optionValue : String → ν → Option OptionValue
  numCols : ν → Nat
  numRows : ν → Nat
  version : ν → String

structure Native (ν : Type) where
  library : ν
deriving DecidableEq

namespace Native

variable {ν : Type}

/-- A step of an engine call: it goes on with the library it leaves, or stops with a message. The
warnings so far are kept, last one first. -/
structure Stage (ν : Type) where
  library : ν
  log : List LogRecord
  stopped : Option String

namespace Stage

def start (l : ν) : Stage ν := ⟨l,[],none⟩

def require (message : Option String) (s : Stage ν) : Stage ν :=
  match s.stopped with
  | some _ => s
  | none => { s with stopped := message }

def call (name : String) (primitive : ν → CallStatus × ν) (s : Stage ν) : Stage ν :=
  match s.stopped with
  | some _ => s
  | none =>
    match primitive s.library with
    | (.ok,l) => { s with library := l }
    | (.warning,l) => { s with
        library := l, log := ⟨.warn,s!"{name} returned a warning status"⟩ :: s.log }
    | (.error,l) => { s with library := l, stopped := some s!"{name} returned an error status" }

def reply (s : Stage ν) : Reply (Native ν) :=
  ⟨match s.stopped with
    | none => .ok ()
    | some message => .failed message,⟨s.library⟩,s.log.reverse⟩

end Stage

def integerLimit : Nat := 0x80000000

def tooLarge? (numbers : List Nat) : Option String :=
  (numbers.find? (integerLimit ≤ ·)).map fun n => s!"{n} does not fit in a HiGHS integer"

def zeroIn? (what text : String) : Option String :=
  if '\x00' ∈ text.toList then some s!"{what} contains a NUL byte" else none

variable [Library ν]

def passNames (k : Nat) : List String → Stage ν → Stage ν
  | [], s => s
  | name :: rest, s =>
    passNames (k+1) rest <|
      ((s.require (zeroIn? "column name" name)).require (tooLarge? [k])).call
        "Highs_passColName" (Library.passColName k name)

/-- Passes a model, then the names of its columns. -/
def passModel (m : FlatModel Float) (e : Native ν) : Reply (Native ν) :=
  let hessian := match m.hessian with
    | none => []
    | some q => q.numNonzeros :: q.offsets ++ q.indices
  let s := (((Stage.start e.library).require
      (tooLarge? (m.rows.offsets ++ m.rows.indices ++ hessian))).require
      (tooLarge? [m.numCols,m.numRows,m.rows.numNonzeros])).call
        "Highs_passModel" (Library.passModel m)
  (passNames 0 (m.names.getD []) s).reply

def markIntegrality (k : Nat) : List Nat → Stage ν → Stage ν
  | [], s => s
  | code :: rest, s =>
    markIntegrality (k+1) rest <|
      if code = 0 then s
      else s.call "Highs_changeColIntegrality" (Library.changeColIntegrality k code)

/-- Adds columns, then marks those that are not continuous. -/
def addCols (b : ColumnBatch Float) (e : Native ν) : Reply (Native ν) :=
  let first := Library.numCols e.library
  let s := ((Stage.start e.library).require
      (tooLarge? (first :: b.matrix.offsets ++ b.matrix.indices ++
        [b.size,b.matrix.numNonzeros]))).call "Highs_addCols" (Library.addCols b)
  (markIntegrality first b.integrality s).reply

def addRows (b : RowBatch Float) (e : Native ν) : Reply (Native ν) :=
  (((Stage.start e.library).require
    (tooLarge? (b.matrix.offsets ++ b.matrix.indices ++ [b.size,b.matrix.numNonzeros]))).call
      "Highs_addRows" (Library.addRows b)).reply

def withPath (name path : String) (primitive : String → ν → CallStatus × ν) (e : Native ν) :
    Reply (Native ν) :=
  (((Stage.start e.library).require (zeroIn? "path" path)).call name (primitive path)).reply

def simply (name : String) (primitive : ν → CallStatus × ν) (e : Native ν) : Reply (Native ν) :=
  ((Stage.start e.library).call name primitive).reply

def unusable? (name : String) : OptionValue → Option String
  | .int n =>
    if -0x80000000 ≤ n.toInt ∧ n.toInt < 0x80000000 then none
    else some s!"value {n} for option \"{name}\" is out of range"
  | .text s => zeroIn? "option value" s
  | _ => none

def setOption (name : String) (value : OptionValue) (e : Native ν) : Reply (Native ν) :=
  let s := ((Stage.start e.library).require (zeroIn? "option name" name)).require
    (unusable? name value)
  match s.stopped with
  | some _ => s.reply
  | none =>
    match Library.setOption name value e.library with
    | (.error,l) => .failed s!"option \"{name}\" rejected value {value.display}" ⟨l⟩
    | (_,l) => .ok ⟨l⟩

def optionKind (name : String) (e : Native ν) : Except String OptionKind :=
  match zeroIn? "option name" name with
  | some message => .error message
  | none => match Library.optionType name e.library with
    | some kind => .ok kind
    | none => .error s!"unknown option \"{name}\""

def getOption (name : String) (e : Native ν) : Except String OptionValue :=
  match e.optionKind name with
  | .error message => .error message
  | .ok _ => match Library.optionValue name e.library with
    | some value => .ok value
    | none => .error "Highs_getOptionValue returned an error status"

def info (e : Native ν) : Diagnostics := (Library.info e.library).getD .none

/-- The point, if the diagnostics speak of one, and what is logged where it cannot be read. -/
def readSolution (e : Native ν) : DenseSolution × List LogRecord :=
  let valueValid := e.info.primalSolutionStatus ≠ 0
  let dualValid := e.info.dualSolutionStatus ≠ 0
  if valueValid ∨ dualValid then
    match Library.point e.library with
    | some (colValue,colDual,rowValue,rowDual) =>
      (⟨valueValid,dualValid,colValue,colDual,rowValue,rowDual⟩,[])
    | none => (.none,[⟨.warn,"Highs_getSolution failed, reporting no solution"⟩])
  else (.none,[])

instance : Engine (Native ν) where
  passModel := passModel
  readModel := fun path => withPath "Highs_readModel" path Library.readModel
  writeModel := fun path => withPath "Highs_writeModel" path Library.writeModel
  writeSolution := fun path style =>
    withPath "Highs_writeSolution" path fun path => Library.writeSolution path style
  addRows := addRows
  addCols := addCols
  run := simply "Highs_run" Library.run
  setSolution := fun start => simply "Highs_setSolution" (Library.setSolution start)
  setOption := setOption
  clearSolver := simply "Highs_clearSolver" Library.clearSolver
  optionKind := optionKind
  getOption := getOption
  modelStatus := fun e => Library.modelStatus e.library
  info := info
  solution := fun e => e.readSolution.1
  reading := fun e => e.readSolution.2
  numCols := fun e => Library.numCols e.library
  numRows := fun e => Library.numRows e.library
  version := fun e => Library.version e.library
  closing := fun _ => [⟨.debug,"Destroying HiGHS instance"⟩]

end Native
end SolverSession
