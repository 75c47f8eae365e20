import DualAscent.Ascent.Reverse
import DualAscent.Proofs.Damping

/-!
# Reverse sweeps

Checkpoints do not change what a reverse sweep returns, and a sweep keeps the kind of the damping
gradient.
-/

namespace DualAscent.Ascent

variable {α : Type} {slots n : Nat} [Zero α] [Add α] [Sub α] [Mul α] [Neg α]

theorem matches_stepBackward {β τ : Type} {other : Damping β τ} (a : Ascent α slots n)
    (c : Costs (Vector α n)) {g : Inputs α (Vector α n)} (matched : g.damping.Matches other) :
    (a.stepBackward c g).damping.Matches other :=
  Damping.matches_accumulate matched _

theorem matches_sweep {β τ : Type} {other : Damping β τ} (a : Ascent α slots n)
    (states : List (Costs (Vector α n))) {g : Inputs α (Vector α n)}
    (matched : g.damping.Matches other) : (a.sweep states g).damping.Matches other := by
  induction states with
  | nil => exact matched
  | cons c states ih => exact a.matches_stepBackward c ih

/-- Sweeping block by block from checkpoints is sweeping over the whole run. -/
theorem checkpointedSweep_eq_sweep (a : Ascent α slots n) (c : Costs (Vector α n))
    (steps caches : Nat) (g : Inputs α (Vector α n)) :
    a.checkpointedSweep c steps caches g = a.sweep (a.trace steps c) g := by
  have blockwise : ∀ starts : List (Costs (Vector α n) × Nat),
      starts.foldr (fun start gradient => a.sweep (a.trace start.2 start.1) gradient) g =
        a.sweep (starts.flatMap fun start => a.trace start.2 start.1) g := by
    intro starts
    induction starts with
    | nil => rfl
    | cons start starts ih =>
        rw [List.foldr_cons, ih, List.flatMap_cons]
        exact List.foldr_append.symm
  rw [← retrace_blocks a c steps caches]
  exact blockwise _

end DualAscent.Ascent
