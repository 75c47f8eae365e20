import DualAscent.Operation.Saved

/-!
The dual ascent as a differentiable operation. The forward pass runs dual iterations on every
solver and records how many each of them made. The backward pass binds the saved inputs again and
has exactly those iterations replayed, with gradients through the trailing ones.
-/

namespace DualAscent

/-- Outputs of a dual ascent. -/
structure Ascended (α : Type) where
  /-- Working costs afterwards. -/
  costs : Costs (Array α)
  /-- Iterations that each solver made. -/
  realized : List Nat
  /-- Summary of the trailing iterations, if the settings ask for one. -/
  trend : Option (Trend (Array α))

/-- What a dual ascent keeps for its backward pass. -/
structure AscentRecord (α : Type) extends Saved (Inputs α (Array α)) where
  /-- Iterations that each solver made. -/
  realized : List Nat
  /-- Most trailing iterations that carry gradients. -/
  tracked : Nat
  /-- Most states kept at once for the reverse sweep. -/
  caches : Nat

namespace Operation

open Procedure Batch

variable {α σ : Type} [Scalar α] [Zero α] [Engine α σ]

/-- The elements of all inputs, which have to be of equal length. -/
def denseInputs (inputs : Inputs α (Buffer α)) : Except (Error α) (Inputs α (Array α)) := do
  let costs ← inputs.costs.dense
  let weights ← inputs.weights.dense "dist_weights"
  costs.requireAligned
  requireSize "dist_weights" weights costs.lo.size
  let damping ← inputs.damping.dense costs.lo.size
  return ⟨costs, weights, damping⟩

/-- The summary to ask of a solver with this much room. -/
def trendRequest (settings : AscentSettings α) (layers bdds : Span) : Option (TrendRequest α) :=
  if settings.summarises then
    some ⟨settings.window, settings.decay, ⟨layers.length, bdds.length, bdds.length⟩⟩
  else none

/-- Runs dual iterations from inputs on one solver. -/
def ascendWith (settings : AscentSettings α) (i : Nat) (layers : Span)
    (share : Inputs α (Array α)) (trend : Option (TrendRequest α)) (room : Costs Nat) :
    Procedure (Event α) σ (Error α) (Realized α × Costs (Array α)) := do
  let context := Context.run settings.iterations
  log (.visiting .ascent i [(.layer, layers)])
  attempt i context (.setCosts share.costs)
  let realized ← attempt i context (.iterations share.weights settings.iterations share.damping
    settings.slope trend)
  let costs ← attempt i context (.costs room)
  return (realized, costs)

/-- Runs dual iterations on one solver. -/
def ascendOne (inputs : Inputs α (Array α)) (settings : AscentSettings α) (i : Nat)
    (layers bdds : Span) : Procedure (Event α) σ (Error α) (Realized α × Costs (Array α)) :=
  ascendWith settings i layers (inputs.map layers.slice) (trendRequest settings layers bdds)
    (roomForCosts layers)

/-- Runs dual iterations on every solver. -/
def ascend (inputs : Inputs α (Buffer α)) (settings : AscentSettings α) :
    Work α σ (Ascended α × AscentRecord α) := do
  let inputs ← lift (denseInputs inputs)
  let layers ← resolve .layer inputs.costs.lo.size
  let b ← read
  let bdds ← resolve .bdd (b.total .bdd)
  let results ← visit (layers.spans.zip bdds.spans) fun i (layers, bdds) =>
    ascendOne inputs settings i layers bdds
  let realized := results.map (·.1.iterations)
  log (.ascentFinished settings.iterations realized)
  let trends := results.filterMap (·.1.trend)
  let ascended : Ascended α :=
    { costs := joinCosts (results.map (·.2))
      realized
      trend :=
        if settings.summarises then
          some ⟨joined (trends.map (·.average)), joined (trends.map (·.first)),
            joined (trends.map (·.second))⟩
        else none }
  return (ascended, ⟨⟨inputs, b.sizes⟩, realized, settings.tracked, settings.caches⟩)

/-- Reports gradient segments of one solver. -/
def logGradients (i : Nat) (named : List (String × Array α)) :
    Procedure (Event α) σ (Error α) Unit :=
  named.forM fun (name, values) => log (.gradient name i values)

/-- Sends gradients back through inputs on one solver. -/
def descendWith (caches i : Nat) (layers : Span) (window : ReplayWindow) (carried : α)
    (share gradient : Inputs α (Array α)) :
    Procedure (Event α) σ (Error α) (α × Inputs α (Array α)) := do
  let context := Context.replay window
  log (.replaying i [(.layer, layers)] window)
  attempt i context (.setCosts share.costs)
  logGradients i
    [("grad_lo_costs_input", gradient.costs.lo), ("grad_hi_costs_input", gradient.costs.hi),
      ("grad_def_mm_input", gradient.costs.deferred)]
  let swept ← attempt i context
    (.gradIterations share.weights share.damping gradient window caches)
  logGradients i
    [("grad_lo_costs_out", swept.costs.lo), ("grad_hi_costs_out", swept.costs.hi),
      ("grad_def_mm_out", swept.costs.deferred), ("grad_dist_weights_out", swept.weights)]
  return (swept.damping.shared?.getD carried, swept)

/-- Sends the gradients of one solver back. The gradient of a shared damping factor enters with
what the solvers before have contributed, and is carried on to the next one. -/
def descendOne (record : AscentRecord α) (outer : Costs (Array α)) (i : Nat)
    (layers : Span) (window : ReplayWindow) (carried : α) :
    Procedure (Event α) σ (Error α) (α × Inputs α (Array α)) :=
  let share := record.inputs.map layers.slice
  let ofDamping : Damping α (Array α) :=
    match share.damping with
    | .shared _ => .shared carried
    | .perLayer _ => .perLayer (zeros layers)
  descendWith record.caches i layers window carried share
    ⟨outer.map layers.slice, zeros layers, ofDamping⟩

/-- The gradient of all inputs of a recorded dual ascent. -/
def ascendBackward (record : AscentRecord α) (gradients : OutputGradients α) :
    Work α σ (Inputs α (Array α)) := do
  let b ← read
  lift (b.ensureMatches record.sizes)
  let length := record.inputs.costs.lo.size
  let branches ← lift (incomingBranches gradients length)
  let deferred ← lift (incoming "grad_def_mm" gradients.deferred length)
  if gradients.average.isSome then
    log .averageGradientIgnored
  let layers := Layout.ofSizes .layer record.sizes
  lift (layers.require length)
  let windows := record.realized.map (ReplayWindow.ofRun · record.tracked)
  let (carried, parts) ← visitCarrying 0 (layers.spans.zip windows)
    fun i (layers, window) carried =>
      descendOne record ⟨branches, deferred⟩ i layers window carried
  let gradient : Inputs α (Array α) :=
    { costs := joinCosts (parts.map (·.costs))
      weights := joined (parts.map (·.weights))
      damping :=
        match record.inputs.damping with
        | .shared _ => .shared carried
        | .perLayer _ => .perLayer (joined (parts.map (·.damping.toArray))) }
  lift (requireFiniteArrays
    [("grad_lo_costs", gradient.costs.lo), ("grad_hi_costs", gradient.costs.hi),
      ("grad_def_mm", gradient.costs.deferred), ("grad_dist_weights", gradient.weights),
      ("grad_omega", gradient.damping.toArray)])
  return gradient

end Operation

end DualAscent
