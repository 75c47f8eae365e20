import DualAscent.Damping

/-!
The number families that solvers work on, one value per layer each. The container is left open:
the same shapes hold whole batch buffers, the segments of one solver, and vectors of a fixed
length.
-/

namespace DualAscent

/-- One container for the low and one for the high branch of every layer. -/
structure Branches (τ : Type) where
  /-- For the low branch. -/
  lo : τ
  /-- For the high branch. -/
  hi : τ
deriving DecidableEq

/-- The working costs: branch costs, and what is still to be added to the high branch. -/
structure Costs (τ : Type) extends Branches τ where
  /-- Deferred min-marginals. -/
  deferred : τ
deriving DecidableEq

/-- Applies a function to each of the three containers. -/
def Costs.map {τ υ : Type} (f : τ → υ) (costs : Costs τ) : Costs υ where
  lo := f costs.lo
  hi := f costs.hi
  deferred := f costs.deferred

/-- Everything a dual ascent depends on; also the shape of the gradient with respect to it. -/
structure Inputs (α τ : Type) where
  /-- Working costs at the start. -/
  costs : Costs τ
  /-- Shares by which a variable's min-marginals go back to its layers. -/
  weights : τ
  /-- Damping of every update. -/
  damping : Damping α τ

/-- Applies a function to each container. -/
def Inputs.map {α τ υ : Type} (f : τ → υ) (inputs : Inputs α τ) : Inputs α υ where
  costs := inputs.costs.map f
  weights := f inputs.weights
  damping := inputs.damping.map f

/-- What the trailing iterations of a run did. -/
structure Trend (τ : Type) where
  /-- Averaged branch choice of every layer. -/
  average : τ
  /-- Mean change of every diagram's bound. -/
  first : τ
  /-- Mean change of that change. -/
  second : τ
deriving DecidableEq

/-- Applies a function to each of the three containers. -/
def Trend.map {τ υ : Type} (f : τ → υ) (trend : Trend τ) : Trend υ where
  average := f trend.average
  first := f trend.first
  second := f trend.second

/-- Result of primal rounding. -/
structure Rounding (α : Type) where
  /-- Value of every primal variable. -/
  assignment : List Bool
  /-- Pushes it took until the layers of every variable agreed. -/
  rounds : Nat
  /-- Total lower bound at that point. -/
  bound : α

end DualAscent
