import SolverSession.ModelStatus

/-!
# Diagnostics

What an engine says about its last run beside the solution: the quality of the points it holds, the
value of the objective, and counts of its work.
-/
namespace SolverSession

/-- Diagnostics of an engine; all zero while it holds none. -/
structure Diagnostics where
  valid : Bool
  basisValidity : Int32
  primalSolutionStatus : Int32
  dualSolutionStatus : Int32
  objectiveValue : Float
  mipDualBound : Float
  mipGap : Float
  mipNodeCount : Int64
  simplexIterations : Int32
  ipmIterations : Int32
  crossoverIterations : Int32
  qpIterations : Int32
  numPrimalInfeasibilities : Int32
  maxPrimalInfeasibility : Float
  sumPrimalInfeasibilities : Float
  numDualInfeasibilities : Int32
  maxDualInfeasibility : Float
  sumDualInfeasibilities : Float
deriving BEq, DecidableEq

namespace Diagnostics

def none : Diagnostics := ⟨false,0,0,0,0,0,0,0,0,0,0,0,0,0,0,0,0,0⟩

def primalPoint (i : Diagnostics) : PointStatus := .ofCode i.primalSolutionStatus

def dualPoint (i : Diagnostics) : PointStatus := .ofCode i.dualSolutionStatus

end Diagnostics

end SolverSession
