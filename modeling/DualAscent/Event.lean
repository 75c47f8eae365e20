import DualAscent.Error

/-!
What a batched operation and its engines report while they run.
-/

namespace DualAscent

/-- The batched operations that announce each solver they turn to. -/
inductive Task where
  /-- Forward pass of the dual ascent. -/
  | ascent
  /-- Forward pass of the redistribution. -/
  | redistribution
  /-- Forward pass of the min-marginal differences. -/
  | minMarginals
  /-- Forward pass of the perturbation. -/
  | perturbation
  /-- Forward pass of the lower bounds. -/
  | bounds
  /-- Primal rounding. -/
  | rounding
deriving DecidableEq

/-- Something worth reporting. -/
inductive Event (α : Type) where
  /-- An engine failed. -/
  | engineFailed (solver : Nat) (routine : Routine) (context : Context α) (source : EngineError)
  /-- The segments of a flat array are settled. -/
  | resolved (layout : Layout)
  /-- An operation turns to a solver. -/
  | visiting (task : Task) (solver : Nat) (place : Place)
  /-- The backward pass of the dual ascent turns to a solver. -/
  | replaying (solver : Nat) (place : Place) (window : ReplayWindow)
  /-- The averaged solution came with a gradient, which has no effect. -/
  | averageGradientIgnored
  /-- All solvers of a dual ascent have run. -/
  | ascentFinished (requested : Nat) (realized : List Nat)
  /-- All solvers are rounded. -/
  | roundingFinished (solvers : Nat)
  /-- A gradient segment on its way through a backward pass. -/
  | gradient (name : String) (solver : Nat) (values : Array α)
  /-- A run ended because it hardly improved any more. -/
  | stoppedEarly (iterations : Nat) (improvement : α)
  /-- Rounding reached agreement. -/
  | agreed (rounds : Nat)

end DualAscent
