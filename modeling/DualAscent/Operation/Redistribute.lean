import DualAscent.Operation.Saved

/-!
Redistribution of deferred min-marginals as a differentiable operation. Afterwards the deferred
min-marginals of every solver are zero; the gradient of what they were is the one of the high
branch costs.
-/

namespace DualAscent.Operation

open Procedure Batch

variable {α σ : Type} [Scalar α] [Zero α] [Engine α σ]

/-- Moves deferred min-marginals into costs on one solver. -/
def redistributeWith (i : Nat) (layers : Span) (share : Costs (Array α)) (room : Costs Nat) :
    Procedure (Event α) σ (Error α) (Costs (Array α)) := do
  let context := Context.segments [(.layer, layers)]
  log (.visiting .redistribution i [(.layer, layers)])
  attempt i context (.setCosts share)
  attempt i context .distributeDelta
  attempt i context (.costs room)

/-- Moves the deferred min-marginals of one solver into its costs. -/
def redistributeOne (costs : Costs (Array α)) (i : Nat) (layers : Span) :
    Procedure (Event α) σ (Error α) (Costs (Array α)) :=
  redistributeWith i layers (costs.map layers.slice) (roomForCosts layers)

/-- Moves the deferred min-marginals of every solver into its costs. -/
def redistribute (costs : Costs (Buffer α)) :
    Work α σ (Costs (Array α) × Saved (Costs (Array α))) := do
  let costs ← lift costs.dense
  lift costs.requireAligned
  let layers ← resolve .layer costs.lo.size
  let b ← read
  let results ← visit layers.spans fun i layers => redistributeOne costs i layers
  return (joinCosts results, ⟨costs, b.sizes⟩)

/-- The gradient of the deferred min-marginals of one solver. -/
def redistributeOneBackward (costs : Costs (Array α)) (outer : Branches (Array α)) (i : Nat)
    (layers : Span) : Procedure (Event α) σ (Error α) (Array α) :=
  ask i (.segments [(.layer, layers)]) (costs.map layers.slice)
    (.gradDistributeDelta ⟨layers.slice outer.lo, layers.slice outer.hi⟩ layers.length)

/-- The gradient of all costs before a recorded redistribution. Those of the branch costs pass
through unchanged. -/
def redistributeBackward (record : Saved (Costs (Array α))) (gradients : OutputGradients α) :
    Work α σ (Costs (Array α)) := do
  let b ← read
  lift (b.ensureMatches record.sizes)
  let length := record.inputs.lo.size
  let outer ← lift (incomingBranches gradients length)
  let layers := Layout.ofSizes .layer record.sizes
  lift (layers.require length)
  let parts ← visit layers.spans fun i layers =>
    redistributeOneBackward record.inputs outer i layers
  let gradient : Costs (Array α) := ⟨outer, joined parts⟩
  lift (requireFiniteArrays
    [("grad_lo_costs", gradient.lo), ("grad_hi_costs", gradient.hi),
      ("grad_def_mm", gradient.deferred)])
  return gradient

end DualAscent.Operation
