import DualAscent.Proofs.Ascent.Conservation
import DualAscent.Proofs.Solver.EarlyStop

/-!
# Which dampings keep the sums of the variables

Dual iterations with weights that share every slot out keep the sum of the margins of each
variable's layers if all layers of a variable are damped alike, as they are with one factor for all
layers.  With a factor per layer they keep it at all costs in no other case.
-/

namespace DualAscent.Solver

open Procedure

variable {K : Type} [CommRing K] {s : Solver K}

/-- What the high branches of a slot's layers cost more than the low ones, all layers together. -/
def marginSum (s : Solver K) (slot : Nat) : K :=
  ∑ l with (s.diagrams.slotOf.get l : Nat) = slot,
    (s.costs.hi.get l + s.costs.deferred.get l - s.costs.lo.get l)

/-- It depends on the costs alone, wherever the solver is in its account of runs. -/
theorem marginSum_eq_get_slotSums (weights : Vector K s.layers)
    (damping : Damping K (Vector K s.layers)) {costs : Costs (Vector K s.layers)}
    {pending : List Nat} {t : Solver K} (state : t = { s with costs, pending })
    (slot : Fin s.slots) :
    t.marginSum slot = ((s.ascent weights damping).slotSums costs).get slot := by
  subst state
  simp only [marginSum, Ascent.get_slotSums, Costs.get_margins, Costs.highCost, ascent, Fin.ext_iff]

variable [Scalar K]

/-- A run that may make a single step makes it. -/
theorem iterate_one (weights : Vector K s.layers) (damping : Damping K (Vector K s.layers))
    (slope : K) (fits : fitsMemory s.slots sumBytes = true) (allowed : s.limit ≠ some 0) :
    ((iterate weights.toArray 1 (damping.map Vector.toArray) slope none).run s).state =
      { s with costs := (s.ascent weights damping).step s.costs, pending := 1 :: s.pending } := by
  have capped : s.cap 1 = 1 := by
    cases limited : s.limit with
    | none => rw [cap, limited, Option.map_none, Option.getD_none]
    | some limit =>
        have some_step : limit ≠ 0 := fun none => allowed (none ▸ limited)
        rw [cap, limited, Option.map_some, Option.getD_some]
        omega
  have roomy : s.checkTrend none = .ok () := rfl
  have spacious : s.cap 1 = 0 ∨ fitsMemory s.slots sumBytes = true := .inr fits
  have answered := (yields_iterate weights damping slope roomy spacious).result
  have ends := endsAfter_of_iterate answered
  have reached := (iterate_answered weights damping answered).2
  dsimp only at ends reached
  generalize (s.finish weights 1 damping slope none).1.steps = steps at ends reached
  obtain rfl : steps = 1 := by
    rw [capped] at ends
    cases sign : Scalar.lt 0 slope with
    | false => exact ends.flat sign
    | true =>
        rcases ends.steep sign with least | ⟨all, -⟩
        · exact absurd (least.1.1.trans least.1.2.1) (by decide)
        · exact all
  exact reached

/-- Weights that share every slot out keep the sum of every variable at all costs, over any number
of iterations, if and only if the layers of each slot are damped alike. -/
theorem iterate_keeps_marginSum_iff (s : Solver K) (weights : Vector K s.layers)
    (damping : Damping K (Vector K s.layers)) (shares : (s.ascent weights damping).SharesSlots)
    (fits : fitsMemory s.slots sumBytes = true) (allowed : s.limit ≠ some 0) :
    (∀ (costs : Costs (Vector K s.layers)) most slope trend (slot : Fin s.slots),
      ((iterate weights.toArray most (damping.map Vector.toArray) slope trend).run
        { s with costs }).state.marginSum slot = marginSum { s with costs } slot) ↔
      (s.ascent weights damping).DampsSlots := by
  constructor
  · intro kept
    apply Ascent.dampsSlots_of_kept
    intro c slot
    have single := kept c 1 0 none slot
    rwa [marginSum_eq_get_slotSums weights damping
        (iterate_one (s := { s with costs := c }) weights damping 0 fits allowed),
      marginSum_eq_get_slotSums weights damping rfl] at single
  · intro damps costs most slope trend slot
    rcases iterate_costs { s with costs } weights most damping slope trend with
      ⟨k, -, pending, state⟩ | ⟨-, -, unfit⟩
    · rw [marginSum_eq_get_slotSums weights damping state,
        marginSum_eq_get_slotSums weights damping rfl]
      exact Ascent.get_slotSums_after damps shares k costs slot
    · cases fits.symm.trans unfit

/-- One factor for each of the two variables and one for the terminals keep the sum of the second
variable. -/
theorem opposed_keeps_marginSum :
    let damping : Damping ℚ (Vector ℚ opposed.layers) := .perLayer #v[1 / 4, 1 / 2, 1, 1 / 2, 1]
    opposed.marginSum 1 = 1 ∧ ∀ most slope,
      ((iterate (Ascent.evenWeights opposed.diagrams.slotOf).toArray most
        (damping.map Vector.toArray) slope none).run opposed).state.marginSum 1 = 1 := by
  intro damping
  have start : opposed.marginSum 1 = 1 := by decide +kernel
  have alike :
      (opposed.ascent (Ascent.evenWeights opposed.diagrams.slotOf) damping).DampsSlots := by
    unfold Ascent.DampsSlots
    decide +kernel
  have kept := (iterate_keeps_marginSum_iff opposed (Ascent.evenWeights opposed.diagrams.slotOf)
    damping (Ascent.sharesSlots_evenWeights _ _) (by decide) (by decide)).mpr alike
  exact ⟨start, fun most slope => (kept opposed.costs most slope none ⟨1, by decide⟩).trans start⟩

/-- If only one layer of the second variable is damped, a single iteration changes the variable's
sum, although the weights share it out and all factors lie between zero and one. -/
theorem opposed_changes_marginSum :
    let weights := Ascent.evenWeights opposed.diagrams.slotOf
    let damping : Damping ℚ (Vector ℚ opposed.layers) := .perLayer #v[0, 1, 0, 0, 0]
    (opposed.ascent weights damping).SharesSlots ∧
      (∀ l, 0 ≤ damping.factor l ∧ damping.factor l ≤ 1) ∧ opposed.marginSum 1 = 1 ∧
      ((iterate weights.toArray 1 (damping.map Vector.toArray) 0 none).run
        opposed).state.marginSum 1 = 7 / 2 := by
  intro weights damping
  exact ⟨Ascent.sharesSlots_evenWeights _ _, by decide +kernel, by decide +kernel,
    by decide +kernel⟩

end DualAscent.Solver
