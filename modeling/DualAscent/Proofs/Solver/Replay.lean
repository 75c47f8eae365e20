import DualAscent.Proofs.Ascent.Sweep
import DualAscent.Proofs.Solver.Iterate

/-!
# Serving a replay

A solver whose deferred min-marginals are in place accepts costs of the right length.  It sends a
gradient back through the latest run if the replay makes as many steps; the run is then off the
record.
-/

namespace DualAscent.Solver

open Procedure

variable {α : Type}

variable [Zero α] [Add α] [Sub α] [Mul α] [Neg α]

theorem yields_setCosts [Scalar α] {s : Solver α} (intact : s.intact = true)
    (costs : Costs (Vector α s.layers)) :
    (serve (.setCosts (costs.map Vector.toArray))).Yields s { s with costs } () := by
  have run_eq : (bindCosts (costs.map Vector.toArray)).run s = ⟨[], { s with costs }, .ok ()⟩ := by
    simp only [bindCosts, run_read_bind, Costs.map, segment_toArray, run_lift_ok_bind,
      checkIntact, intact, if_true]
    rfl
  rw [serve_setCosts]
  exact .of_run run_eq

/-- The solver after a replay of its latest run. -/
def replayed (s : Solver α) (window : ReplayWindow) (caches : Nat) : Solver α :=
  { s with pending := s.pending.tail, replays := s.replays.push ⟨window, caches⟩ }

/-- The gradient of a run whose trailing steps are tracked. -/
def swept (s : Solver α) (inputs : Inputs α (Vector α s.layers)) (window : ReplayWindow)
    (caches : Nat) (gradient : Inputs α (Vector α s.layers)) : Inputs α (Vector α s.layers) :=
  let ascent := s.ascent inputs.weights inputs.damping
  ascent.checkpointedSweep (ascent.after window.skip inputs.costs) window.tracked caches gradient

theorem matches_swept {β τ : Type} {other : Damping β τ} (s : Solver α)
    (inputs : Inputs α (Vector α s.layers)) (window : ReplayWindow) (caches : Nat)
    (gradient : Inputs α (Vector α s.layers)) (matched : gradient.damping.Matches other) :
    (s.swept inputs window caches gradient).damping.Matches other := by
  rw [swept, Ascent.checkpointedSweep_eq_sweep]
  exact Ascent.matches_sweep _ _ matched

theorem yields_iterateBackward {s : Solver α} (weights : Vector α s.layers)
    (damping : Damping α (Vector α s.layers)) (gradient : Inputs α (Vector α s.layers))
    {window : ReplayWindow} (latest : window.total = s.pending.head?.getD 0) (caches : Nat) :
    (iterateBackward weights.toArray (damping.map Vector.toArray) (gradient.map Vector.toArray)
        window caches).Yields s (s.replayed window caches)
      ((s.swept ⟨s.costs, weights, damping⟩ window caches gradient).map Vector.toArray) := by
  have agreed : ¬window.total ≠ s.pending.head?.getD 0 := fun differs => differs latest
  have run_eq : (iterateBackward weights.toArray (damping.map Vector.toArray)
      (gradient.map Vector.toArray) window caches).run s = ⟨[], s.replayed window caches,
        .ok ((s.swept ⟨s.costs, weights, damping⟩ window caches gradient).map
          Vector.toArray)⟩ := by
    simp only [iterateBackward_eq, run_read_bind, Inputs.map, Costs.map, segment_toArray,
      dampingSegment_map_toArray, run_lift_ok_bind, if_neg agreed]
    rfl
  exact .of_run run_eq

/-- A request for a replay fails without a trace, or sweeps back through the latest run. -/
theorem iterateBackward_cases (s : Solver α) (weights : Array α) (damping : Damping α (Array α))
    (gradient : Inputs α (Array α)) (window : ReplayWindow) (caches : Nat) :
    let outcome := (iterateBackward weights damping gradient window caches).run s
    (outcome.state = s ∧ ∃ e, outcome.result = .error e) ∨
      ∃ (weights' : Vector α s.layers) (damping' : Damping α (Vector α s.layers))
        (gradient' : Inputs α (Vector α s.layers)),
        weights'.toArray = weights ∧ damping'.map Vector.toArray = damping ∧
          gradient'.map Vector.toArray = gradient ∧ window.total = s.pending.head?.getD 0 ∧
          (iterateBackward weights damping gradient window caches).Yields s
            (s.replayed window caches)
            ((s.swept ⟨s.costs, weights', damping'⟩ window caches gradient').map
              Vector.toArray) := by
  by_cases accepted : ∃ (weights' : Vector α s.layers) (damping' : Damping α (Vector α s.layers))
      (gradient' : Inputs α (Vector α s.layers)), weights'.toArray = weights ∧
        damping'.map Vector.toArray = damping ∧ gradient'.map Vector.toArray = gradient ∧
        window.total = s.pending.head?.getD 0
  · obtain ⟨weights', damping', gradient', rfl, rfl, rfl, latest⟩ := accepted
    exact .inr ⟨weights', damping', gradient', rfl, rfl, rfl, latest,
      yields_iterateBackward weights' damping' gradient' latest caches⟩
  · left
    rw [iterateBackward_eq, run_read_bind]
    cases weightsRead : segment "dist_weights" weights s.layers with
    | error e => exact ⟨rfl, e, rfl⟩
    | ok weights' =>
    cases loRead : segment "grad_lo" gradient.costs.lo s.layers with
    | error e => exact ⟨rfl, e, rfl⟩
    | ok lo =>
    cases hiRead : segment "grad_hi" gradient.costs.hi s.layers with
    | error e => exact ⟨rfl, e, rfl⟩
    | ok hi =>
    cases deferredRead : segment "grad_deferred" gradient.costs.deferred s.layers with
    | error e => exact ⟨rfl, e, rfl⟩
    | ok deferred =>
    cases ofWeightsRead : segment "grad_dist_weights" gradient.weights s.layers with
    | error e => exact ⟨rfl, e, rfl⟩
    | ok ofWeights =>
    cases dampingRead : dampingSegment "omega" damping s.layers with
    | error e => exact ⟨rfl, e, rfl⟩
    | ok damping' =>
    cases ofDampingRead : dampingSegment "grad_omega" gradient.damping s.layers with
    | error e => exact ⟨rfl, e, rfl⟩
    | ok ofDamping =>
    have differs : window.total ≠ s.pending.head?.getD 0 := by
      intro latest
      refine accepted ⟨weights', damping', ⟨⟨⟨lo, hi⟩, deferred⟩, ofWeights, ofDamping⟩,
        segment_eq_ok_iff.mp weightsRead, dampingSegment_eq_ok_iff.mp dampingRead, ?_, latest⟩
      simp only [Inputs.map, Costs.map, segment_eq_ok_iff.mp loRead, segment_eq_ok_iff.mp hiRead,
        segment_eq_ok_iff.mp deferredRead, segment_eq_ok_iff.mp ofWeightsRead,
        dampingSegment_eq_ok_iff.mp ofDampingRead]
    simp only [run_lift_ok_bind, if_pos differs]
    exact ⟨rfl, _, rfl⟩

end DualAscent.Solver
