import DualAscent.Proofs.Ascent.Run
import DualAscent.Proofs.Ascent.Sweep
import DualAscent.Proofs.Exact
import DualAscent.Proofs.Solver.Replay

/-!
# Replays do not depend on checkpoints

A replay could store the costs before every tracked step and send the gradient back through them
from the last to the first.  With any number of checkpoints it returns exactly what that returns,
whatever the number operations do, and it keeps no more checkpoints than it is allowed.
-/

namespace DualAscent

variable {α : Type} [Zero α] [Add α] [Sub α] [Mul α]

namespace Ascent

variable {slots n : Nat}

/-- There is a checkpoint for each block. -/
theorem map_snd_checkpoints (a : Ascent α slots n) (c : Costs (Vector α n)) (lengths : List Nat) :
    (a.checkpoints c lengths).map Prod.snd = lengths := by
  induction lengths generalizing c with
  | nil => rfl
  | cons k rest ih => rw [checkpoints, List.map_cons, ih]

/-- No more checkpoints are kept than allowed, but for the one that is always there. -/
theorem length_checkpoints_le (a : Ascent α slots n) (c : Costs (Vector α n))
    (steps caches : Nat) : (a.checkpoints c (blocks steps caches)).length ≤ max caches 1 := by
  have lengths := congrArg List.length (a.map_snd_checkpoints c (blocks steps caches))
  rw [List.length_map] at lengths
  rw [lengths]
  exact length_blocks_le steps caches

variable [Neg α]

/-- Stores the costs before each tracked step of a run and sends a gradient back through them, once
through each, from the last to the first. -/
def storedSweep (a : Ascent α slots n) (c : Costs (Vector α n)) (window : ReplayWindow)
    (g : Inputs α (Vector α n)) : Inputs α (Vector α n) :=
  ((List.range' window.skip window.tracked).map fun k => a.after k c).foldr a.stepBackward g

theorem checkpointedSweep_eq_storedSweep (a : Ascent α slots n) (c : Costs (Vector α n))
    (window : ReplayWindow) (caches : Nat) (g : Inputs α (Vector α n)) :
    a.checkpointedSweep (a.after window.skip c) window.tracked caches g =
      a.storedSweep c window g := by
  rw [checkpointedSweep_eq_sweep, trace_after]
  rfl

end Ascent

namespace Solver

open Ascent Procedure

variable [Neg α]

/-- A replay that repeats the latest run returns what a sweep through all stored costs returns, bit
for bit and for every number of checkpoints, of which it keeps no more than allowed. -/
theorem iterateBackward_eq_storedSweep (s : Solver α) (weights : Vector α s.layers)
    (damping : Damping α (Vector α s.layers)) (gradient : Inputs α (Vector α s.layers))
    (window : ReplayWindow) (latest : window.total = s.pending.head?.getD 0) :
    let ascent := s.ascent weights damping
    let replay (caches : Nat) := (iterateBackward weights.toArray (damping.map Vector.toArray)
      (gradient.map Vector.toArray) window caches).run s
    (∀ caches, (replay caches).result =
      .ok ((ascent.storedSweep s.costs window gradient).map Vector.toArray)) ∧
    (∀ caches caches', (replay caches).result = (replay caches').result) ∧
    ∀ caches, (ascent.checkpoints (ascent.after window.skip s.costs)
      (blocks window.tracked caches)).length ≤ max caches 1 := by
  intro ascent replay
  have stored : ∀ caches, (replay caches).result =
      .ok ((ascent.storedSweep s.costs window gradient).map Vector.toArray) := by
    intro caches
    have swept : s.swept ⟨s.costs, weights, damping⟩ window caches gradient =
        ascent.storedSweep s.costs window gradient :=
      ascent.checkpointedSweep_eq_storedSweep s.costs window caches gradient
    rw [← swept]
    exact (yields_iterateBackward weights damping gradient latest caches).result
  refine ⟨stored, fun caches caches' => ?_, fun caches => ?_⟩
  · rw [stored caches, stored caches']
  · exact ascent.length_checkpoints_le _ window.tracked caches

/-- Two chains that share a variable, after a run of seven steps. -/
def travelled : Solver ℚ where
  diagrams := ⟨2, [List.finRange 2, [.last 1]]⟩
  costs := ⟨⟨#v[1 / 2, 1, 0, -1, 0], #v[1, -2, 3, 3, -1]⟩, .replicate 5 0⟩
  limit := none
  failure := none
  pending := [7]
  replays := #[]
  intact := true

/-- A gradient of the deferred min-marginals after that run. -/
def outerGradient : Inputs ℚ (Vector ℚ 5) :=
  let zeros : Vector ℚ 5 := .replicate 5 0
  ⟨⟨⟨zeros, zeros⟩, #v[1, -1, 1 / 2, 2, 0]⟩, zeros, .shared 0⟩

/-- Five tracked steps come in one block, in blocks of three and two, or one by one. -/
theorem travelled_iterateBackward :
    let replay (caches : Nat) := (iterateBackward #[1, 1 / 2, 1 / 2, 1 / 2, 1 / 2]
      (.shared (3 / 10)) (outerGradient.map Vector.toArray) ⟨2, 5⟩ caches).run travelled
    [blocks 5 0, blocks 5 2, blocks 5 8] = [[5], [3, 2], [1, 1, 1, 1, 1]] ∧
      (replay 0).result = (replay 2).result ∧ (replay 2).result = (replay 8).result ∧
      ∃ gradient : Inputs ℚ (Vector ℚ 5),
        (replay 2).result = .ok (gradient.map Vector.toArray) := by
  obtain ⟨stored, same, -⟩ := iterateBackward_eq_storedSweep travelled
    #v[1, 1 / 2, 1 / 2, 1 / 2, 1 / 2] (.shared (3 / 10)) outerGradient ⟨2, 5⟩ rfl
  exact ⟨by decide, same 0 2, same 2 8, _, stored 2⟩

end Solver

end DualAscent
