import SolverSession.Decimal

/-!
# Exact linear programs

A system of inequalities over the rationals is solved with the simplex method. A dictionary writes
some of the quantities, which are all at least zero, as affine forms in the others; a pivot swaps
two of them. Of several candidates the one with the smallest number enters or leaves, so that no
dictionary comes back. Numbers are taken as they are written.
-/
namespace SolverSession

def writtenValue (x : Float) : Rat :=
  if x == 0 then 0
  else
    let d := Decimal.shortest .toEven x.abs
    let unit : Rat := (Nat.pow 10 d.exponent.natAbs : Nat)
    let size : Rat := if 0 ≤ d.exponent then (d.digits : Rat)*unit else (d.digits : Rat)/unit
    if x < 0 then -size else size

/-- The double next to a rational. The quotient is taken to more places than a double has, and its
last place tells whether anything is left over. -/
def nearFloat (q : Rat) : Float :=
  let size := q.num.natAbs
  let shift : Int := (62+Nat.log2 q.den : Nat)-(Nat.log2 size : Nat)
  let dividend := size*Nat.pow 2 shift.toNat
  let divisor := q.den*Nat.pow 2 (-shift).toNat
  let quotient := 2*(dividend/divisor)+(if dividend % divisor = 0 then 0 else 1)
  let x := (Float.ofNat quotient).scaleB (-shift-1)
  if q.num < 0 then -x else x

structure Inequality where
  coefficients : List Rat
  bound : Rat
deriving DecidableEq

def Inequality.product : List Rat → List Rat → Rat
  | c :: cs, x :: xs => c*x+product cs xs
  | _, _ => 0

structure Form where
  constant : Rat
  coefficients : List Rat

namespace Form

/-- The form solved for the quantity at position `k`, which changes places with the one the form
stood for. -/
def solve (f : Form) (k : Nat) : Form :=
  let a := f.coefficients.getD k 0
  ⟨-f.constant/a,(f.coefficients.map (-·/a)).set k (1/a)⟩

def substitute (f : Form) (k : Nat) (entry : Form) : Form :=
  let c := f.coefficients.getD k 0
  ⟨f.constant+c*entry.constant,
    List.zipWith (fun x y => x+c*y) (f.coefficients.set k 0) entry.coefficients⟩

end Form

/-- Quantities by number: the free ones, the others as forms in them, and two forms to be made
large, one after the other. -/
structure Dictionary where
  free : List Nat
  bound : List (Nat × Form)
  goal : Form
  later : Form

namespace Dictionary

def pivot (d : Dictionary) (k : Nat) (leaving : Nat) : Dictionary :=
  match d.bound.lookup leaving with
  | none => d
  | some row =>
    let entry := row.solve k
    let entering := d.free.getD k 0
    { free := d.free.set k leaving
      bound := d.bound.map fun (name,f) =>
        if name = leaving then (entering,entry) else (name,f.substitute k entry)
      goal := d.goal.substitute k entry
      later := d.later.substitute k entry }

def entering? (d : Dictionary) : Option Nat :=
  let candidates := ((d.free.zip d.goal.coefficients).zipIdx).filter (0 < ·.1.2)
  (candidates.foldl (fun best c => match best with
    | some b => if c.1.1 < b.1.1 then some c else best
    | none => some c) none).map (·.2)

def limits (d : Dictionary) (k : Nat) : List (Nat × Rat) :=
  d.bound.filterMap fun (name,f) =>
    let a := f.coefficients.getD k 0
    if a < 0 then some (name,-f.constant/a) else none

def leaving? (d : Dictionary) (k : Nat) : Option Nat :=
  ((d.limits k).foldl (fun best c => match best with
    | some b => if c.2 < b.2 || (c.2 == b.2 && c.1 < b.1) then some c else best
    | none => some c) none).map (·.1)

def optimize : Nat → Dictionary → Option Dictionary
  | 0, d => some d
  | fuel+1, d => match d.entering? with
    | none => some d
    | some k => match d.leaving? k with
      | none => none
      | some name => optimize fuel (d.pivot k name)

/-- There are fewer dictionaries than sets of quantities. -/
def fuel (d : Dictionary) : Nat := Nat.pow 2 (d.free.length+d.bound.length)

def value (d : Dictionary) (name : Nat) : Rat := (d.bound.lookup name).elim 0 (·.constant)

def drop (d : Dictionary) (name : Nat) : Dictionary :=
  let position := match d.bound.lookup name with
    | none => none
    | some f => f.coefficients.findIdx? (· != 0)
  let d := position.elim d (d.pivot · name)
  let k := d.free.idxOf name
  let shorten := fun f : Form => ⟨f.constant,f.coefficients.eraseIdx k⟩
  { free := d.free.eraseIdx k
    bound := (d.bound.filter (·.1 ≠ name)).map fun (name,f) => (name,shorten f)
    goal := shorten d.goal
    later := shorten d.later }

end Dictionary

namespace LinearProgram

inductive Verdict where
  | infeasible
  | unbounded
  | optimal (value : Rat) (point : List Rat)

/-- Quantity 0 is what may be added to every bound, quantity `j+1` is variable `j` less the common
shift `n+1`, and the slack of each inequality follows. -/
def dictionary (n : Nat) (costs : List Rat) (system : List Inequality) : Dictionary :=
  let split := fun (first : Rat) (cs : List Rat) => first :: cs.map (-·) ++ [cs.foldl (·+·) 0]
  { free := List.range (n+2)
    bound := system.zipIdx.map fun (i,k) => (n+2+k,⟨i.bound,split 1 i.coefficients⟩)
    goal := ⟨0,split (-1) (List.replicate n 0)⟩
    later := ⟨0,split 0 costs⟩ }

def mostViolated? (d : Dictionary) : Option Nat :=
  ((d.bound.filter (·.2.constant < 0)).foldl (fun best c => match best with
    | some b => if c.2.constant < b.2.constant then some c else best
    | none => some c) (none : Option (Nat × Form))).map (·.1)

def feasible? (d : Dictionary) : Option Dictionary :=
  match mostViolated? d with
  | none => some (d.drop 0)
  | some name =>
    let d := d.pivot 0 name
    match d.optimize d.fuel with
    | none => none
    | some d => if d.goal.constant < 0 then none else some (d.drop 0)

/-- The least value of `costs·x` subject to a system in `n` variables. -/
def minimize (n : Nat) (costs : List Rat) (system : List Inequality) : Verdict :=
  match feasible? (dictionary n costs system) with
  | none => .infeasible
  | some d =>
    match { d with goal := d.later }.optimize d.fuel with
    | none => .unbounded
    | some d =>
      let shift := d.value (n+1)
      .optimal (-d.goal.constant) ((List.range n).map fun j => d.value (j+1)-shift)

def unit (n j : Nat) (factor : Rat) : List Rat := (List.replicate n 0).set j factor

def better : Verdict → Verdict → Verdict
  | .unbounded, _ => .unbounded
  | _, .unbounded => .unbounded
  | .infeasible, v => v
  | v, .infeasible => v
  | .optimal z x, .optimal z' x' => if z' < z then .optimal z' x' else .optimal z x

end LinearProgram
end SolverSession
