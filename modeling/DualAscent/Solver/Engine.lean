import DualAscent.Solver.Costs
import DualAscent.Solver.Runs

/-!
The chain solver as an engine, and its requests by name.
-/

namespace DualAscent.Solver

open Lent

variable {α : Type}

variable [Scalar α] [Zero α] [Add α] [Sub α] [Mul α] [Neg α]

/-- Calls a routine. -/
def call {δ β : Type} : Invocation α δ β → LentWork α δ β
  | .setCosts costs => onEngine (bindCosts costs)
  | .costs => costsInto
  | .iterations weights most damping slope => iterateInto weights most damping slope
  | .gradIterations weights damping window caches =>
    iterateBackwardInto weights damping window caches
  | .distributeDelta => onEngine distribute
  | .gradDistributeDelta gradient => distributeBackwardInto gradient
  | .minMarginals => minMarginalsInto
  | .gradMinMarginals gradient => minMarginalsBackwardInto gradient
  | .perturb change => onEngine (perturb change)
  | .gradPerturb gradient => perturbBackwardInto gradient
  | .lowerBounds => lowerBoundsInto
  | .gradLowerBounds gradient => lowerBoundsBackwardInto gradient
  | .rounding settings => onEngine (round settings)
  | .solution => solutionInto

instance : Engine α (Solver α) where
  sizes s := s.diagrams.sizes
  call := call

end DualAscent.Solver
