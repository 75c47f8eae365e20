/-!
The routines that a solver engine offers, and the names under which they are reported.
-/

namespace DualAscent

/-- The routines of a solver engine. -/
inductive Routine where
  /-- Binds working costs. -/
  | setCosts
  /-- Reads the working costs back. -/
  | costs
  /-- Runs dual iterations. -/
  | iterations
  /-- Sends gradients back through a run. -/
  | gradIterations
  /-- Moves deferred min-marginals into the costs. -/
  | distributeDelta
  /-- Gradient of that move. -/
  | gradDistributeDelta
  /-- Min-marginal differences of all layers. -/
  | minMarginals
  /-- Gradient of the min-marginal differences. -/
  | gradMinMarginals
  /-- Adds a perturbation per variable to the costs. -/
  | perturb
  /-- Gradient of the perturbation. -/
  | gradPerturb
  /-- Lower bound of every diagram. -/
  | lowerBounds
  /-- Gradient of the lower bounds. -/
  | gradLowerBounds
  /-- Rounds to an assignment of the variables. -/
  | rounding
  /-- Branch choice of every layer. -/
  | solution
deriving DecidableEq

namespace Routine

/-- All routines. -/
def all : List Routine :=
  [setCosts, costs, iterations, gradIterations, distributeDelta, gradDistributeDelta,
    minMarginals, gradMinMarginals, perturb, gradPerturb, lowerBounds, gradLowerBounds,
    rounding, solution]

/-- The name under which a routine is reported. -/
def name : Routine → String
  | setCosts => "set_costs"
  | costs => "costs"
  | iterations => "iterations"
  | gradIterations => "grad_iterations"
  | distributeDelta => "distribute_delta"
  | gradDistributeDelta => "grad_distribute_delta"
  | minMarginals => "all_min_marginal_differences"
  | gradMinMarginals => "grad_all_min_marginal_differences"
  | perturb => "perturb_costs"
  | gradPerturb => "grad_cost_perturbation"
  | lowerBounds => "lower_bound_per_bdd"
  | gradLowerBounds => "grad_lower_bound_per_bdd"
  | rounding => "primal_rounding_incremental"
  | solution => "solution_per_bdd"

/-- The routine reported under a name. -/
def ofName? (name : String) : Option Routine := all.find? (·.name = name)

end Routine

end DualAscent
