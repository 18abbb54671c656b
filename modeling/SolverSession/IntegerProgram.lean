import SolverSession.LinearProgram

/-!
# Linear programs with whole numbers

Integrality is dealt with by branching: a node is a system, and a node whose best point has a
fractional coordinate is split at that coordinate. Before that the whole coordinates are changed for
others along short steps, with lengths taken relative to how far each inequality lets a point move,
so that a narrow strip of points is crossed by few of them. Some inequalities may be violated a
little, since numbers that are written with finitely many digits seldom meet.
-/
namespace SolverSession

structure IntegerProgram where
  size : Nat
  costs : List Rat
  integers : List Nat
  firm : List Inequality
  loose : List Inequality

abbrev Candidate := Option (Rat × List Rat)

namespace IntegerProgram

open LinearProgram

/-- Loose inequalities may be violated by this much. -/
def tolerance : Rat := 1/10000000

def wholeTolerance : Rat := 1/1000000

def tighten (i : Inequality) : List Inequality → List Inequality
  | [] => [i]
  | j :: rest =>
    if j.coefficients = i.coefficients then (if i.bound < j.bound then i else j) :: rest
    else j :: tighten i rest

/-- The inequality with whole coefficients that have no common factor, and the bound rounded down,
if all variables it speaks of are whole numbers. -/
def rounded (integers : List Nat) (i : Inequality) : Inequality :=
  let used := i.coefficients.zipIdx.filter (·.1 != 0)
  if used.isEmpty || used.any (·.2 ∉ integers) then i
  else
    let multiple : Nat := used.foldl (fun m (c,_) => Nat.lcm m c.den) 1
    let divisor : Nat := used.foldl (fun g (c,_) => Nat.gcd g (c*(multiple : Rat)).num.natAbs) 0
    let scale : Rat := (multiple : Rat)/(divisor : Rat)
    let slack := if scale < 1 then scale*tolerance else tolerance
    ⟨i.coefficients.map (scale*·),((scale*i.bound+slack).floor : Int)⟩

def fixedAt? (n : Nat) (system : List Inequality) (j : Nat) : Option Rat :=
  match system.find? (·.coefficients = unit n j 1),
      system.find? (·.coefficients = unit n j (-1)) with
  | some upper, some lower => if upper.bound = -lower.bound then some upper.bound else none
  | _, _ => none

def fix (j : Nat) (value : Rat) (i : Inequality) : Inequality :=
  if (i.coefficients.set j 0).all (· == 0) then i
  else ⟨i.coefficients.set j 0,i.bound-i.coefficients.getD j 0*value⟩

def sharpen (n : Nat) (integers : List Nat) (system : List Inequality) : List Inequality :=
  let sharp := fun system : List Inequality =>
    system.foldl (fun kept i => tighten (rounded integers i) kept) []
  sharp (integers.foldl (fun system j => match fixedAt? n system j with
    | some value => system.map (fix j value)
    | none => system) (sharp system))

def fractional? (slack : Rat) (point : List Rat) (integers : List Nat) : Option (Nat × Rat) :=
  integers.findSome? fun j =>
    let x := point.getD j 0
    let distance := x-((x+1/2).floor : Int)
    if -slack ≤ distance && distance ≤ slack then none else some (j,x)

def system (p : IntegerProgram) : List Inequality := p.firm ++ p.loose

/-- The system with every loose inequality given up by an amount of its own, so that the sum of the
amounts is least. The amounts are further variables. -/
def amounts (p : IntegerProgram) : Verdict :=
  let m := p.loose.length
  let firm := p.firm.map fun i => ⟨i.coefficients ++ List.replicate m 0,i.bound⟩
  let loose := p.loose.zipIdx.map fun (i,k) => ⟨i.coefficients ++ unit m k (-1),i.bound⟩
  let positive := (List.range m).map fun k => ⟨List.replicate p.size 0 ++ unit m k (-1),0⟩
  minimize (p.size+m) (List.replicate p.size 0 ++ List.replicate m 1) (firm ++ loose ++ positive)

def loosen? (p : IntegerProgram) : Option IntegerProgram :=
  match p.amounts with
  | .optimal _ point =>
    let amounts := point.drop p.size
    if amounts.all (· ≤ tolerance) then
      some { p with loose :=
        List.zipWith (fun i amount => ⟨i.coefficients,i.bound+amount⟩) p.loose amounts }
    else none
  | _ => none

def near (p : IntegerProgram) (point : List Rat) : Candidate :=
  let fixed := p.integers.flatMap fun j =>
    let x : Rat := ((point.getD j 0+1/2).floor : Int)
    [⟨unit p.size j 1,x⟩,⟨unit p.size j (-1),-x⟩]
  match loosen? { p with firm := fixed ++ p.firm } with
  | none => none
  | some q => match minimize q.size q.costs q.system with
    | .optimal value point => some (value,point)
    | _ => none

end IntegerProgram

namespace Candidate

def better (best other : Candidate) : Candidate :=
  match best, other with
  | some a, some b => if b.1 < a.1 then other else best
  | none, _ => other
  | _, none => best

def verdict : Candidate → LinearProgram.Verdict
  | none => .infeasible
  | some (value,point) => .optimal value point

end Candidate

namespace IntegerProgram

open LinearProgram

/-- Works off open nodes, at most `fuel` of them. A node that cannot better the best point so far is
closed. -/
def search (p : IntegerProgram) : Nat → Candidate → List (List Inequality) → Verdict
  | 0, best, _ => best.verdict
  | _, best, [] => best.verdict
  | fuel+1, best, node :: nodes =>
    let system := sharpen p.size p.integers node
    match minimize p.size p.costs system with
    | .infeasible => p.search fuel best nodes
    | .unbounded => .unbounded
    | .optimal value point =>
      if best.any (·.1 ≤ value) then p.search fuel best nodes
      else match fractional? 0 point p.integers with
        | none => p.search fuel (some (value,point)) nodes
        | some (j,x) =>
          let best := match fractional? wholeTolerance point p.integers with
            | none => best.better (p.near point)
            | some _ => best
          let below := tighten ⟨unit p.size j 1,x.floor⟩ system
          let above := tighten ⟨unit p.size j (-1),-(x.floor+1)⟩ system
          p.search fuel best (below :: above :: nodes)

structure Step where
  vector : List Rat
  traces : List Rat

namespace Step

def length (s : Step) : Rat := Inequality.product s.traces s.traces

def reduce (s other : Step) : Step :=
  let ratio := Inequality.product s.traces other.traces/other.length
  let times : Rat := ((ratio+1/2).floor : Int)
  let less := List.zipWith fun x y => x-times*y
  ⟨less s.vector other.vector,less s.traces other.traces⟩

def sweep (done : List Step) : List Step → List Step
  | [] => done
  | s :: rest => sweep (done ++ [rest.foldl reduce (done.foldl reduce s)]) rest

/-- Sweeps until the steps stay as they are. They are a basis of the whole vectors at any time. -/
def shorten : Nat → List Step → List Step
  | 0, steps => steps
  | fuel+1, steps =>
    let swept := sweep [] steps
    if swept.map vector = steps.map vector then steps else shorten fuel swept

end Step

def extent? (p : IntegerProgram) (coefficients : List Rat) : Option Rat :=
  let least := fun cs => minimize p.size cs p.system
  match least coefficients, least (coefficients.map (-·)) with
  | .optimal low _, .optimal high _ => some (-high-low)
  | _, _ => none

/-- The products of the whole coordinates that have a limited extent, divided by that extent. What
cannot move at all counts as moving very little. -/
def measures (p : IntegerProgram) : List (List Rat) :=
  let part := fun i : Inequality =>
    i.coefficients.mapIdx fun j c => if j ∈ p.integers then c else 0
  (p.system.map part).eraseDups.filterMap fun d =>
    if d.all (· == 0) then none
    else (p.extent? d).map fun e =>
      let e := if e < wholeTolerance then wholeTolerance else e
      d.map (·/e)

/-- The shortest steps found, the longest of them first. Unit steps have traces of their own, so
that all lengths are positive. -/
def steps (p : IntegerProgram) : List Step :=
  let measures := p.measures
  let steps := p.integers.map fun j =>
    let e := unit p.size j 1
    ⟨e,measures.map (Inequality.product · e) ++ e.map (·/1000000000000)⟩
  (Step.shorten 1000 steps).mergeSort fun s t => t.length ≤ s.length

def basis (p : IntegerProgram) : List (List Rat) :=
  let own := (List.range p.size).map fun j => unit p.size j 1
  (p.integers.zip p.steps).foldl (fun basis (j,s) => basis.set j s.vector) own

def combine (n : Nat) (basis : List (List Rat)) (factors : List Rat) : List Rat :=
  (basis.zip factors).foldl (fun sum (b,y) => List.zipWith (fun s x => s+y*x) sum b)
    (List.replicate n 0)

def inBasis (p : IntegerProgram) (basis : List (List Rat)) : IntegerProgram :=
  let change := fun cs => basis.map (Inequality.product cs)
  let changeAll := List.map fun i : Inequality => (⟨change i.coefficients,i.bound⟩ : Inequality)
  { p with costs := change p.costs, firm := changeAll p.firm, loose := changeAll p.loose }

/-- The least value; up to `fuel` nodes are looked at. A program without a least value has none with
whole numbers either, unless no point of it is whole. -/
def branch (p : IntegerProgram) (fuel : Nat) : Verdict :=
  match p.search fuel none [p.system] with
  | .unbounded =>
    match search { p with costs := List.replicate p.size 0 } fuel none [p.system] with
    | .infeasible => .infeasible
    | _ => .unbounded
  | verdict => verdict

def solve (p : IntegerProgram) (fuel : Nat) : Verdict :=
  match p.loosen? with
  | none => .infeasible
  | some p =>
    if p.integers.length < 2 then p.branch fuel
    else
      let basis := p.basis
      match (p.inBasis basis).branch fuel with
      | .optimal value point => .optimal value (combine p.size basis point)
      | verdict => verdict

end IntegerProgram
end SolverSession
