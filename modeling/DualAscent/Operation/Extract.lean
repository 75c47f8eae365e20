import DualAscent.Operation.Saved

/-!
Solutions read off a batch: rounding to an assignment of the variables, and the branch choice of
every layer. Neither is differentiable.
-/

namespace DualAscent.Operation

open Procedure Batch

variable {α σ : Type} [Scalar α] [Zero α] [Engine α σ]

/-- Rounds costs on one solver. -/
def roundWith (settings : RoundingSettings α) (i : Nat) (layers : Span)
    (share : Costs (Array α)) : Procedure (Event α) σ (Error α) (Rounding α) := do
  log (.visiting .rounding i [(.layer, layers)])
  ask i (.rounding settings) share (.rounding settings)

/-- Rounds one solver. -/
def roundOne (costs : Costs (Array α)) (settings : RoundingSettings α) (i : Nat) (layers : Span) :
    Procedure (Event α) σ (Error α) (Rounding α) :=
  roundWith settings i layers (costs.map layers.slice)

/-- Rounds every solver; the solvers keep the costs that rounding leaves behind. -/
def round (costs : Costs (Buffer α)) (settings : RoundingSettings α) :
    Work α σ (List (Rounding α)) := do
  let costs ← lift costs.dense
  lift costs.requireAligned
  let layers ← resolve .layer costs.lo.size
  let results ← visit layers.spans fun i layers => roundOne costs settings i layers
  log (.roundingFinished results.length)
  return results

/-- Branch choices of one solver's layers. -/
def solutionOne (branches : Branches (Array α)) (i : Nat) (layers : Span) :
    Procedure (Event α) σ (Error α) (Array α) :=
  ask i (.segments [(.layer, layers)]) (undeferred branches layers) (.solution layers.length)

/-- Branch choices of all layers: one for the high branch and zero for the low one. -/
def solution (branches : Branches (Buffer α)) : Work α σ (Array α) := do
  let branches ← lift (denseBranches branches)
  let layers ← resolve .layer branches.lo.size
  let results ← visit layers.spans fun i layers => solutionOne branches i layers
  return joined results

end DualAscent.Operation
