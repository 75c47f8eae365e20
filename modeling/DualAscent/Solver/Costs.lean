import DualAscent.Solver.Basic

/-!
Routines that bind the working costs of a solver, copy them, or change them by a formula, and the
gradients of those formulas. No run is put on record. Slices are written after all checks have
passed; what fails then is only the access to deferred min-marginals that are not in place.
-/

namespace DualAscent.Solver

open Procedure Lent

variable {α : Type}

/-- Binds working costs: those of the branches are in place before the deferred min-marginals
are. -/
def bindCosts (costs : Costs (Array α)) : Work α Unit := do
  let s ← read
  let lo ← lift (segment "lo" costs.lo s.layers)
  let hi ← lift (segment "hi" costs.hi s.layers)
  let deferred ← lift (segment "deferred" costs.deferred s.layers)
  write { s with costs := { s.costs with lo, hi } }
  lift s.checkIntact
  write { s with costs := ⟨⟨lo, hi⟩, deferred⟩ }

/-- Copies the working costs, in the same order. -/
def costsInto : LentWork α (Costs (Array α)) Unit := do
  let lent ← read
  let s := lent.engine
  lift (room "lo" lent.slices.lo.size s.layers)
  lift (room "hi" lent.slices.hi.size s.layers)
  lift (room "deferred" lent.slices.deferred.size s.layers)
  overwrite fun slices => { slices with lo := s.costs.lo.toArray, hi := s.costs.hi.toArray }
  lift s.checkIntact
  overwrite fun slices => { slices with deferred := s.costs.deferred.toArray }

/-- Moves the deferred min-marginals into the costs, as far as there are any. -/
def distribute [Zero α] [Add α] : Work α Unit := do
  let s ← read
  lift (s.checkFailure .distributeDelta)
  write { s with costs := if s.intact then s.costs.distribute else s.costs }

/-- The deferred min-marginals enter the costs as the high branch costs do. -/
def distributeBackwardInto (gradient : Branches (Array α)) : LentWork α (Array α) Unit := do
  let lent ← read
  let s := lent.engine
  let _ ← lift (segment "grad_lo" gradient.lo s.layers)
  let hi ← lift (segment "grad_hi" gradient.hi s.layers)
  lift (room "grad_deferred" lent.slices.size s.layers)
  overwrite fun _ => hi.toArray

/-- Min-marginal differences of all layers. -/
def minMarginalsInto [Add α] [Sub α] : LentWork α (Array α) Unit := do
  let lent ← read
  let s := lent.engine
  lift (s.checkFailure .minMarginals)
  lift (room "mm_diff" lent.slices.size s.layers)
  lift s.checkIntact
  overwrite fun _ => s.costs.margins.toArray

/-- A difference passes its gradient on to the high branch, and the negated one to the low
branch. -/
def minMarginalsBackwardInto [Neg α] (gradient : Array α) :
    LentWork α (Branches (Array α)) Unit := do
  let lent ← read
  let s := lent.engine
  let gradient ← lift (segment "grad_mm_diff" gradient s.layers)
  lift (room "grad_lo" lent.slices.lo.size s.layers)
  lift (room "grad_hi" lent.slices.hi.size s.layers)
  overwrite fun _ => ⟨(gradient.map (-·)).toArray, gradient.toArray⟩

/-- Adds a perturbation per slot to the costs. -/
def perturb [Add α] (change : Branches (Array α)) : Work α Unit := do
  let s ← read
  lift (s.checkFailure .perturb)
  let lo ← lift (segment "lo_pert" change.lo s.slots)
  let hi ← lift (segment "hi_pert" change.hi s.slots)
  write { s with costs := s.costs.perturb s.diagrams.slotOf ⟨lo, hi⟩ }

/-- A slot's perturbation receives the gradients of all its layers. -/
def perturbBackwardInto [Zero α] [Add α] (gradient : Branches (Array α)) :
    LentWork α (Branches (Array α)) Unit := do
  let lent ← read
  let s := lent.engine
  let lo ← lift (segment "grad_lo" gradient.lo s.layers)
  let hi ← lift (segment "grad_hi" gradient.hi s.layers)
  lift (room "grad_lo_pert" lent.slices.lo.size s.slots)
  lift (room "grad_hi_pert" lent.slices.hi.size s.slots)
  overwrite fun _ =>
    ⟨(sumBy s.diagrams.slotOf lo).toArray, (sumBy s.diagrams.slotOf hi).toArray⟩

section Bounds

variable [Scalar α] [Zero α] [Add α]

/-- Total lower bound; zero without the deferred min-marginals. -/
def bound (s : Solver α) : α := if s.intact then s.costs.bound else 0

/-- Lower bound of every chain. -/
def lowerBoundsInto : LentWork α (Array α) Unit := do
  let lent ← read
  let s := lent.engine
  lift (s.checkFailure .lowerBounds)
  lift (room "lb_per_bdd" lent.slices.size s.bdds)
  lift s.checkIntact
  overwrite fun _ => (s.costs.boundsBy s.diagrams.chainOf).toArray

/-- A chain's bound passes its gradient on to the branch that each layer takes. -/
def lowerBoundsBackwardInto (gradient : Array α) : LentWork α (Branches (Array α)) Unit := do
  let lent ← read
  let s := lent.engine
  let gradient ← lift (segment "grad_lb" gradient s.bdds)
  let low ← lift (segment "grad_lo" lent.slices.lo s.layers)
  lift (room "grad_hi" lent.slices.hi.size s.layers)
  lift s.checkIntact
  let chainOf := s.diagrams.chainOf
  overwrite fun _ => {
    lo := Array.ofFn fun l : Fin s.layers =>
      if s.costs.takesHigh l then low.get l else low.get l + gradient.get (chainOf.get l)
    hi := Array.ofFn fun l : Fin s.layers =>
      if s.costs.takesHigh l then gradient.get (chainOf.get l) else 0 }

/-- Branch choice of every layer. -/
def solutionInto : LentWork α (Array α) Unit := do
  let lent ← read
  let s := lent.engine
  lift (s.checkFailure .solution)
  lift (room "solution" lent.slices.size s.layers)
  lift s.checkIntact
  overwrite fun _ => s.costs.solution.toArray

end Bounds

end DualAscent.Solver
