import DualAscent.Operation.Saved

/-!
Min-marginal differences as a differentiable operation. Deferred min-marginals have to be
redistributed before; both passes bind none.
-/

namespace DualAscent.Operation

open Procedure Batch

variable {α σ : Type} [Scalar α] [Zero α] [Engine α σ]

/-- Min-marginal differences of one solver. -/
def minMarginalsOne (branches : Branches (Array α)) (i : Nat) (layers : Span) :
    Procedure (Event α) σ (Error α) (Array α) :=
  consult .minMarginals i [(.layer, layers)] (undeferred branches layers)
    (.minMarginals layers.length)

/-- Min-marginal differences of all layers. -/
def minMarginals (branches : Branches (Buffer α)) :
    Work α σ (Array α × Saved (Branches (Array α))) := do
  let branches ← lift (denseBranches branches)
  let layers ← resolve .layer branches.lo.size
  let b ← read
  let results ← visit layers.spans fun i layers => minMarginalsOne branches i layers
  return (joined results, ⟨branches, b.sizes⟩)

/-- The gradient of one solver's costs. -/
def minMarginalsOneBackward (branches : Branches (Array α)) (outer : Array α) (i : Nat)
    (layers : Span) : Procedure (Event α) σ (Error α) (Branches (Array α)) :=
  ask i (.segments [(.layer, layers)]) (undeferred branches layers)
    (.gradMinMarginals (layers.slice outer) ⟨layers.length, layers.length⟩)

/-- The gradient of the costs behind recorded min-marginal differences. -/
def minMarginalsBackward (record : Saved (Branches (Array α))) (gradients : OutputGradients α) :
    Work α σ (Branches (Array α)) := do
  let b ← read
  lift (b.ensureMatches record.sizes)
  let length := record.inputs.lo.size
  let outer ← lift (incoming "grad_mm_diff" gradients.values length)
  let layers := Layout.ofSizes .layer record.sizes
  lift (layers.require length)
  let parts ← visit layers.spans fun i layers =>
    minMarginalsOneBackward record.inputs outer i layers
  let gradient := joinBranches parts
  lift (requireFiniteArrays
    [("grad_lo_costs", gradient.lo), ("grad_hi_costs", gradient.hi)])
  return gradient

end DualAscent.Operation
