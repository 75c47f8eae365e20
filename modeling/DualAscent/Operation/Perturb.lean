import DualAscent.Operation.Saved

/-!
Perturbation of the costs per variable as a differentiable operation. The perturbations have a
segment per variable slot and the costs one per layer; both have to fit the batch.
-/

namespace DualAscent

/-- Costs and what is to be added to them. -/
structure Perturbed (τ : Type) where
  /-- Perturbation per slot. -/
  change : Branches τ
  /-- Costs per layer. -/
  costs : Branches τ

namespace Operation

open Procedure Batch

variable {α σ : Type} [Scalar α] [Zero α] [Engine α σ]

/-- The elements of perturbations and costs, both branches of which have to be of equal length. -/
def densePerturbed (inputs : Perturbed (Buffer α)) : Except (Error α) (Perturbed (Array α)) := do
  let change ← inputs.change.dense "lo_costs_pert" "hi_costs_pert"
  let costs ← inputs.costs.dense "lo_costs" "hi_costs"
  requireSize "hi_costs" costs.hi costs.lo.size
  requireSize "hi_costs_pert" change.hi change.lo.size
  return ⟨change, costs⟩

/-- Perturbs costs on one solver. -/
def perturbWith (i : Nat) (layers slots : Span) (share : Costs (Array α))
    (change : Branches (Array α)) (room : Costs Nat) :
    Procedure (Event α) σ (Error α) (Branches (Array α)) := do
  let place : Place := [(.layer, layers), (.slot, slots)]
  let context := Context.segments place
  log (.visiting .perturbation i place)
  attempt i context (.setCosts share)
  attempt i context (.perturb change)
  let costs ← attempt i context (.costs room)
  return costs.toBranches

/-- Perturbs the costs of one solver. -/
def perturbOne (inputs : Perturbed (Array α)) (i : Nat) (layers slots : Span) :
    Procedure (Event α) σ (Error α) (Branches (Array α)) :=
  perturbWith i layers slots (undeferred inputs.costs layers)
    ⟨slots.slice inputs.change.lo, slots.slice inputs.change.hi⟩ (roomForCosts layers)

/-- Perturbs the costs of every solver. -/
def perturb (inputs : Perturbed (Buffer α)) :
    Work α σ (Branches (Array α) × Saved (Perturbed (Array α))) := do
  let inputs ← lift (densePerturbed inputs)
  let layers ← resolve .layer inputs.costs.lo.size
  let slots ← resolve .slot inputs.change.lo.size
  let b ← read
  let results ← visit (layers.spans.zip slots.spans) fun i (layers, slots) =>
    perturbOne inputs i layers slots
  return (joinBranches results, ⟨inputs, b.sizes⟩)

/-- The gradient of one solver's perturbation. -/
def perturbOneBackward (inputs : Perturbed (Array α)) (outer : Branches (Array α)) (i : Nat)
    (layers slots : Span) : Procedure (Event α) σ (Error α) (Branches (Array α)) :=
  ask i (.segments [(.layer, layers), (.slot, slots)]) (undeferred inputs.costs layers)
    (.gradPerturb ⟨layers.slice outer.lo, layers.slice outer.hi⟩ ⟨slots.length, slots.length⟩)

/-- The gradient of perturbations and costs of a recorded perturbation. Those of the costs pass
through unchanged. -/
def perturbBackward (record : Saved (Perturbed (Array α))) (gradients : OutputGradients α) :
    Work α σ (Perturbed (Array α)) := do
  let b ← read
  lift (b.ensureMatches record.sizes)
  let length := record.inputs.costs.lo.size
  let outer ← lift (incomingBranches gradients length)
  let layers := Layout.ofSizes .layer record.sizes
  let slots := Layout.ofSizes .slot record.sizes
  lift (layers.require length)
  lift (slots.require record.inputs.change.lo.size)
  let parts ← visit (layers.spans.zip slots.spans) fun i (layers, slots) =>
    perturbOneBackward record.inputs outer i layers slots
  let change := joinBranches parts
  lift (requireFiniteArrays
    [("grad_lo_costs_pert", change.lo), ("grad_hi_costs_pert", change.hi),
      ("grad_lo_costs", outer.lo), ("grad_hi_costs", outer.hi)])
  return ⟨change, outer⟩

end Operation

end DualAscent
