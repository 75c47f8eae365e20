import DualAscent.Operation.Saved

/-!
Lower bounds of the decision diagrams as a differentiable operation. Both passes bind no deferred
min-marginals. A bound passes its gradient on to the branch that each layer takes.
-/

namespace DualAscent.Operation

open Procedure Batch

variable {α σ : Type} [Scalar α] [Zero α] [Engine α σ]

/-- Lower bounds of one solver's diagrams. -/
def lowerBoundsOne (branches : Branches (Array α)) (i : Nat) (layers bdds : Span) :
    Procedure (Event α) σ (Error α) (Array α) :=
  consult .bounds i [(.layer, layers), (.bdd, bdds)] (undeferred branches layers)
    (.lowerBounds bdds.length)

/-- Lower bounds of all diagrams. -/
def lowerBounds (branches : Branches (Buffer α)) :
    Work α σ (Array α × Saved (Branches (Array α))) := do
  let branches ← lift (denseBranches branches)
  let layers ← resolve .layer branches.lo.size
  let b ← read
  let bdds ← resolve .bdd (b.total .bdd)
  let results ← visit (layers.spans.zip bdds.spans) fun i (layers, bdds) =>
    lowerBoundsOne branches i layers bdds
  return (joined results, ⟨branches, b.sizes⟩)

/-- The gradient of one solver's costs. -/
def lowerBoundsOneBackward (branches : Branches (Array α)) (outer : Array α) (i : Nat)
    (layers bdds : Span) : Procedure (Event α) σ (Error α) (Branches (Array α)) :=
  ask i (.segments [(.layer, layers), (.bdd, bdds)]) (undeferred branches layers)
    (.gradLowerBounds (bdds.slice outer) (zeros layers) layers.length)

/-- The gradient of the costs behind recorded lower bounds. An incoming gradient with gaps is
packed first. -/
def lowerBoundsBackward (record : Saved (Branches (Array α))) (gradients : OutputGradients α) :
    Work α σ (Branches (Array α)) := do
  let b ← read
  lift (b.ensureMatches record.sizes)
  let layers := Layout.ofSizes .layer record.sizes
  let bdds := Layout.ofSizes .bdd record.sizes
  lift (layers.require record.inputs.lo.size)
  let packed := gradients.values.map fun values =>
    if values.isContiguous then values else values.packed
  let outer ← lift (incoming "grad_lb_per_bdd" packed bdds.total)
  let parts ← visit (layers.spans.zip bdds.spans) fun i (layers, bdds) =>
    lowerBoundsOneBackward record.inputs outer i layers bdds
  let gradient := joinBranches parts
  lift (requireFiniteArrays
    [("grad_lo_costs", gradient.lo), ("grad_hi_costs", gradient.hi)])
  return gradient

end DualAscent.Operation
