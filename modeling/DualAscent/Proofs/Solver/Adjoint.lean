import DualAscent.Proofs.Ascent.Adjoint
import DualAscent.Proofs.Ascent.Run
import DualAscent.Proofs.Solver.Replay

/-!
# The gradient of the tail of a run

What a solver sweeps back is adjoint to the map that makes the tracked steps, at the costs which
the steps before them have reached.
-/

namespace DualAscent

open DualNumber TrivSqZeroExt

variable {R : Type} [CommRing R]

/-- Direction in which everything but the deferred min-marginals moves as given. -/
def Inputs.withDeferred {τ : Type} (direction : Inputs R τ) (deferred : τ) : Inputs R τ :=
  { direction with costs := { direction.costs with deferred } }

namespace Solver

/-- The first-order change of the deferred min-marginals after the tracked steps, if branch costs,
weights, damping and the deferred min-marginals before those steps move in a direction. -/
def tailChange (s : Solver R) (inputs direction : Inputs R (Vector R s.layers))
    (window : ReplayWindow) : Vector R s.layers :=
  let reached := (s.ascent inputs.weights inputs.damping).after window.skip inputs.costs
  let moving : Ascent R[ε] s.slots s.layers :=
    ⟨s.diagrams.slotOf, jets inputs.weights direction.weights,
      inputs.damping.jets direction.damping⟩
  (moving.after window.tracked (reached.jets direction.costs)).change.deferred

theorem pair_swept (s : Solver R) {inputs direction : Inputs R (Vector R s.layers)}
    (matched : inputs.damping.Matches direction.damping) (window : ReplayWindow) (caches : Nat)
    {gradient : Inputs R (Vector R s.layers)}
    (matched' : gradient.damping.Matches direction.damping) :
    (s.swept inputs window caches gradient).pair entryDot direction =
      gradient.pair entryDot (direction.withDeferred (s.tailChange inputs direction window)) := by
  let reached := (s.ascent inputs.weights inputs.damping).after window.skip inputs.costs
  let moving : Ascent R[ε] s.slots s.layers :=
    ⟨s.diagrams.slotOf, jets inputs.weights direction.weights,
      inputs.damping.jets direction.damping⟩
  have change_eq : moving.damping.change = direction.damping := Damping.change_jets matched
  have value_eq : moving.value = s.ascent inputs.weights inputs.damping := by
    simp only [moving, Ascent.value, map_fst_jets, Damping.value_jets, ascent]
  have moved : ∀ c : Costs (Vector R[ε] s.layers),
      moving.changes c = ⟨c.change, direction.weights, direction.damping⟩ := by
    intro c
    rw [Ascent.changes, change_eq]
    exact congrArg (Inputs.mk _ · _) (map_snd_jets _ _)
  have swept_eq := moving.pair_sweep window.tracked (reached.jets direction.costs) gradient
    (change_eq ▸ matched')
  rw [value_eq, Costs.value_jets, moved, moved, Costs.change_jets] at swept_eq
  have branches := moving.toBranches_after window.tracked (reached.jets direction.costs)
  have lo_eq : (moving.after window.tracked (reached.jets direction.costs)).change.lo =
      direction.costs.lo :=
    (congrArg (fun b => b.lo.map snd) branches).trans (map_snd_jets _ _)
  have hi_eq : (moving.after window.tracked (reached.jets direction.costs)).change.hi =
      direction.costs.hi :=
    (congrArg (fun b => b.hi.map snd) branches).trans (map_snd_jets _ _)
  rw [swept, Ascent.checkpointedSweep_eq_sweep]
  apply swept_eq.trans
  simp only [Inputs.pair, Costs.pair, Inputs.withDeferred, lo_eq, hi_eq]
  rfl

end Solver

end DualAscent
