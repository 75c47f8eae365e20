import DualAscent.Procedure
import DualAscent.Costs
import DualAscent.Event

/-!
The interface of a solver engine. An engine owns one problem instance and its working state, and
offers routines that are called. All numbers cross the interface as flat segments: those that a
routine only reads are its arguments, and those that it writes are slices of the caller's, lent for
the call with whatever they hold.
-/

namespace DualAscent

/-- An engine together with the slices that a caller lends it. -/
structure Lent (σ δ : Type) where
  /-- The engine. -/
  engine : σ
  /-- The slices. -/
  slices : δ

namespace Lent

variable {Λ σ δ ε β : Type}

/-- A procedure of the engine, which leaves the slices alone. -/
def onEngine (work : Procedure Λ σ ε β) : Procedure Λ (Lent σ δ) ε β := fun lent =>
  let outcome := work.run lent.engine
  ⟨outcome.events, { lent with engine := outcome.state }, outcome.result⟩

theorem run_onEngine_of_run {work : Procedure Λ σ ε β} {s : σ} {outcome : Outcome Λ σ ε β}
    (ran : work.run s = outcome) (slices : δ) :
    (onEngine work).run (Lent.mk s slices) =
      ⟨outcome.events, ⟨outcome.state, slices⟩, outcome.result⟩ := by
  subst ran
  rfl

theorem run_onEngine_read_bind (next : σ → Procedure Λ σ ε β) (lent : Lent σ δ) :
    (onEngine (Procedure.read >>= next)).run lent = (onEngine (next lent.engine)).run lent := rfl

/-- Changes what the slices hold. -/
def overwrite (change : δ → δ) : Procedure Λ (Lent σ δ) ε Unit := fun lent =>
  ⟨[], { lent with slices := change lent.slices }, .ok ()⟩

end Lent

/-- Slices for a summary of the trailing iterations of a run, and how to make it. -/
structure TrendSlices (α : Type) where
  /-- Number of trailing iterations. -/
  window : Nat
  /-- Weight of the past in the averaged solution. -/
  decay : α
  /-- The slices. -/
  slices : Trend (Array α)

/-- A call of a routine, indexed by the slices that it is lent and by what it returns. -/
inductive Invocation (α : Type) : Type → Type → Type where
  /-- Binds working costs. -/
  | setCosts (costs : Costs (Array α)) : Invocation α Unit Unit
  /-- Copies the working costs. -/
  | costs : Invocation α (Costs (Array α)) Unit
  /-- Runs dual iterations and returns how many; the summary is written if there are slices for
  it. -/
  | iterations (weights : Array α) (limit : Nat) (damping : Damping α (Array α)) (slope : α) :
      Invocation α (Option (TrendSlices α)) Nat
  /-- Sends a gradient back through the latest run, starting from the bound costs. It is turned in
  place into the gradient of what the run depends on; the weights and the damping are added to. -/
  | gradIterations (weights : Array α) (damping : Damping α (Array α)) (window : ReplayWindow)
      (caches : Nat) : Invocation α (Inputs α (Array α)) Unit
  /-- Moves the deferred min-marginals into the costs. -/
  | distributeDelta : Invocation α Unit Unit
  /-- Gradient of the deferred min-marginals before that move. -/
  | gradDistributeDelta (gradient : Branches (Array α)) : Invocation α (Array α) Unit
  /-- Min-marginal differences of all layers. -/
  | minMarginals : Invocation α (Array α) Unit
  /-- Gradient of the costs behind the min-marginal differences. -/
  | gradMinMarginals (gradient : Array α) : Invocation α (Branches (Array α)) Unit
  /-- Adds a perturbation per slot to the costs. -/
  | perturb (change : Branches (Array α)) : Invocation α Unit Unit
  /-- Gradient of the perturbation. -/
  | gradPerturb (gradient : Branches (Array α)) : Invocation α (Branches (Array α)) Unit
  /-- Lower bound of every diagram. -/
  | lowerBounds : Invocation α (Array α) Unit
  /-- Gradient of the costs behind the lower bounds: added to the low branch, and overwriting
  what was there for the high branch. -/
  | gradLowerBounds (gradient : Array α) : Invocation α (Branches (Array α)) Unit
  /-- Rounds to an assignment of the variables. -/
  | rounding (settings : RoundingSettings α) : Invocation α Unit (Rounding α)
  /-- Branch choice of every layer. -/
  | solution : Invocation α (Array α) Unit

/-- The routine that is called. -/
def Invocation.routine {α δ β : Type} : Invocation α δ β → Routine
  | setCosts _ => .setCosts
  | costs => .costs
  | iterations .. => .iterations
  | gradIterations .. => .gradIterations
  | distributeDelta => .distributeDelta
  | gradDistributeDelta _ => .gradDistributeDelta
  | minMarginals => .minMarginals
  | gradMinMarginals _ => .gradMinMarginals
  | perturb _ => .perturb
  | gradPerturb _ => .gradPerturb
  | lowerBounds => .lowerBounds
  | gradLowerBounds _ => .gradLowerBounds
  | rounding _ => .rounding
  | solution => .solution

/-- A type of engines over numbers `α`. -/
class Engine (α : outParam Type) (σ : Type) where
  /-- The sizes that an engine reports now. -/
  sizes : σ → Sizes
  /-- Calls a routine with the slices lent to it. -/
  call {δ β : Type} : Invocation α δ β → Procedure (Event α) (Lent σ δ) EngineError β

end DualAscent
