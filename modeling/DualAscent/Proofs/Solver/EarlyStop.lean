import DualAscent.Proofs.Ascent.EarlyStop
import DualAscent.Proofs.Solver.Decay
import DualAscent.Proofs.Solver.Replay

/-!
# A run is a prefix of one sequence of steps

Where a run ends depends on its costs, its limit and its slope alone.  A run with that many steps
as its limit and no slope reaches the same costs, and so does a replay, which stands on its way at
the costs that the run stood at.
-/

namespace DualAscent

namespace Ascent

variable {α : Type} {slots n : Nat} [Zero α] [Add α] [Sub α] [Mul α]

/-- A trace falls into the steps that are skipped and the ones that are tracked. -/
theorem take_trace_total (a : Ascent α slots n) (c : Costs (Vector α n)) (window : ReplayWindow) :
    (a.trace window.total c).take window.skip = a.trace window.skip c := by
  rw [ReplayWindow.total, trace_add]
  exact List.take_left' (a.length_trace window.skip c)

theorem drop_trace_total (a : Ascent α slots n) (c : Costs (Vector α n)) (window : ReplayWindow) :
    (a.trace window.total c).drop window.skip =
      a.trace window.tracked (a.after window.skip c) := by
  rw [ReplayWindow.total, trace_add]
  exact List.drop_left' (a.length_trace window.skip c)

end Ascent

namespace Solver

open Procedure

variable {α : Type}

/-- A limit that the solver would keep to anyway is kept as it is. -/
theorem cap_of_le_cap {s : Solver α} {k most : Nat} (within : k ≤ s.cap most) : s.cap k = k := by
  cases limited : s.limit with
  | none => rw [cap, limited, Option.map_none, Option.getD_none]
  | some limit =>
      rw [cap, limited, Option.map_some, Option.getD_some] at within ⊢
      exact min_eq_right (within.trans (min_le_left limit most))

variable [Scalar α] [Zero α] [Add α] [Sub α] [Mul α] [Neg α]

/-- A run that answers has made the steps that its costs, its limit and its slope determine. -/
theorem endsAfter_of_iterate {s : Solver α} {weights : Vector α s.layers} {most : Nat}
    {damping : Damping α (Vector α s.layers)} {slope : α} {trend : Option (TrendRequest α)}
    {realized : Realized α}
    (ok : ((iterate weights.toArray most (damping.map Vector.toArray) slope trend).run
      s).result = .ok realized) :
    (s.ascent weights damping).EndsAfter s.costs slope (s.cap most) realized.iterations := by
  rw [(iterate_answered weights damping ok).1]
  exact (s.ascent weights damping).endsAfter_run s.costs ⟨slope, (trend.map (·.window)).getD 0⟩ _

/-- Without a slope a run makes all the steps that its limit allows. -/
theorem iterate_of_flat {s : Solver α} (weights : Vector α s.layers) {most : Nat}
    (damping : Damping α (Vector α s.layers)) {slope : α} {trend : Option (TrendRequest α)}
    (flat : Scalar.lt 0 slope = false) (roomy : s.checkTrend trend = .ok ())
    (fits : s.cap most = 0 ∨ fitsMemory s.slots sumBytes = true) :
    ((iterate weights.toArray most (damping.map Vector.toArray) slope trend).run s).state =
      { s with
        costs := (s.ascent weights damping).after (s.cap most) s.costs
        pending := s.cap most :: s.pending } := by
  have answered := (yields_iterate weights damping slope roomy fits).result
  obtain ⟨-, reached⟩ := iterate_answered weights damping answered
  rw [(endsAfter_of_iterate answered).flat flat] at reached
  exact reached

/-- In single precision no slope is one that is not positive. -/
example : Scalar.lt (0 : Float32) 0 = false := by decide +kernel

/-- A run that has the memory it needs answers with the number of steps that its costs, its limit
and its slope determine, and leaves the costs that so many steps reach.  The same limit without a
slope leads there again.  A replay of as many steps passes through the costs that the run passed
through, whatever the checkpoints, and sends the gradient back through the tracked ones. -/
theorem iterate_endsAfter (s : Solver α) (weights : Vector α s.layers) (most : Nat)
    (damping : Damping α (Vector α s.layers)) (slope : α) (trend : Option (TrendRequest α))
    (roomy : s.checkTrend trend = .ok ())
    (fits : s.cap most = 0 ∨ fitsMemory s.slots sumBytes = true) :
    let a := s.ascent weights damping
    let call (most : Nat) (slope : α) (trend : Option (TrendRequest α)) (t : Solver α) :=
      (iterate weights.toArray most (damping.map Vector.toArray) slope trend).run t
    let stages := a.stages ⟨slope, (trend.map (·.window)).getD 0⟩ (s.cap most)
      (Progress.start s.costs)
    ∃ run, (∃ summary, (call most slope trend s).result = .ok ⟨run, summary⟩) ∧
      (call most slope trend s).state =
        { s with costs := a.after run s.costs, pending := run :: s.pending } ∧
      (a.after run s.costs).toBranches = s.costs.toBranches ∧
      a.EndsAfter s.costs slope (s.cap most) run ∧
      (∀ pending replays still trend', Scalar.lt 0 still = false → s.checkTrend trend' = .ok () →
        (call run still trend' { s with pending, replays }).state =
          { s with costs := a.after run s.costs, pending := run :: pending, replays }) ∧
      ∀ pending replays (gradient : Inputs α (Vector α s.layers)) (window : ReplayWindow) caches,
        window.total = run →
        a.trace window.skip s.costs = stages.take window.skip ∧
          a.retrace (a.after window.skip s.costs) (Ascent.blocks window.tracked caches) =
            stages.drop window.skip ∧
          a.after window.tracked (a.after window.skip s.costs) = a.after run s.costs ∧
          ((iterateBackward weights.toArray (damping.map Vector.toArray)
              (gradient.map Vector.toArray) window caches).run
            { s with pending := run :: pending, replays }).result =
              .ok ((a.sweep (stages.drop window.skip) gradient).map Vector.toArray) := by
  intro a call stages
  have answered := (yields_iterate weights damping slope roomy fits).result
  obtain ⟨-, reached⟩ := iterate_answered weights damping answered
  have ends := endsAfter_of_iterate answered
  have passed : stages = a.trace (s.finish weights most damping slope trend).1.steps s.costs :=
    a.stages_eq_trace _ (Nat.zero_add _).symm
  generalize (s.finish weights most damping slope trend).1.steps = run at *
  refine ⟨run, ⟨_, answered⟩, reached, a.toBranches_after run s.costs, ends, ?_, ?_⟩
  · intro pending replays still trend' flat roomy'
    have capped : s.cap run = run := cap_of_le_cap ends.le_cap
    have fits' : s.cap run = 0 ∨ fitsMemory s.slots sumBytes = true := by
      refine fits.imp_left fun idle => ?_
      rw [capped]
      exact Nat.le_zero.mp (ends.le_cap.trans_eq idle)
    have again := iterate_of_flat (s := { s with pending, replays }) weights damping flat roomy'
      fits'
    rw [show cap { s with pending, replays } run = run from capped] at again
    exact again
  · rintro pending replays gradient window caches rfl
    have swept := (yields_iterateBackward
      (s := { s with pending := window.total :: pending, replays }) weights damping gradient rfl
      caches).result
    rw [passed]
    refine ⟨(a.take_trace_total s.costs window).symm, ?_, (a.after_add _ _ _).symm, ?_⟩
    · rw [Ascent.retrace_blocks, a.drop_trace_total]
    · rw [a.drop_trace_total, ← a.checkpointedSweep_eq_sweep]
      exact swept

/-- Half a step at a time, the second of twenty steps improves the bound by no more than three
fifths of what the first one did.  A limit of two steps leads to the same costs, and a replay
tracks the second step from where the first one led. -/
theorem opposed_endsAfter :
    let weights := Ascent.evenWeights opposed.diagrams.slotOf
    let a := opposed.ascent weights (.shared (1 / 2))
    let call (most : Nat) (slope : ℚ) :=
      (iterate weights.toArray most (.shared (1 / 2)) slope none).run opposed
    (∃ summary, (call 20 (3 / 5)).result = .ok ⟨2, summary⟩) ∧
      a.EndsAfter opposed.costs (3 / 5) 20 2 ∧ (call 2 0).state = (call 20 (3 / 5)).state ∧
      a.retrace (a.after 1 opposed.costs) (Ascent.blocks 1 1) =
        (a.stages ⟨3 / 5, 0⟩ 20 (Progress.start opposed.costs)).drop 1 := by
  intro weights a call
  have settled : (call 20 (3 / 5)).result.toOption.map Realized.iterations = some 2 := by
    decide +kernel
  obtain ⟨run, ⟨summary, answered⟩, reached, -, ends, again, replay⟩ :=
    iterate_endsAfter opposed weights 20 (.shared (1 / 2)) (3 / 5) none rfl (.inr (by decide))
  obtain rfl : run = 2 := by
    rw [show (call 20 (3 / 5)).result = _ from answered] at settled
    exact Option.some.inj settled
  refine ⟨⟨summary, answered⟩, ends, ?_, (replay [] #[] ⟨a.after 2 opposed.costs, weights,
    .shared 0⟩ ⟨1, 1⟩ 1 rfl).2.1⟩
  exact (again opposed.pending opposed.replays 0 none (by decide) rfl).trans reached.symm

/-- A solver with more variables than there is memory to sum up. -/
def unsummable : Solver ℚ :=
  .ofDiagrams ⟨4611686018427387904, [[.last 4611686018427387903]]⟩ none none

/-- The one step that it may make takes its deferred min-marginals along. -/
theorem unsummable_iterate_fails :
    let call := (iterate #[0, 0] 1 (.shared 0) 0 none).run unsummable
    unsummable.intact = true ∧ unsummable.cap 1 = 1 ∧
      (¬∃ run summary, call.result = .ok ⟨run, summary⟩) ∧ call.state.intact = false := by
  intro call
  have failed : call.result.toOption.isSome = false := by decide +kernel
  refine ⟨rfl, rfl, ?_, by decide +kernel⟩
  rintro ⟨run, summary, ok⟩
  rw [ok] at failed
  cases failed

end Solver

end DualAscent
