import DualAscent.Proofs.Ascent.Certificate
import DualAscent.Proofs.Solver.Agreement

/-!
# Rounding certifies its answer

The costs that rounding leaves behind show what its answer is worth: they charge the assignment
exactly the bound that comes with it, and no assignment less.
-/

namespace DualAscent.Solver

open Procedure

section Success

variable {α : Type} [Scalar α] [Zero α] [Add α] [Sub α] [Mul α] {s : Solver α}
  {settings : RoundingSettings α} {rounding : Rounding α}

/-- A solver that answers is not set up to fail, and has memory to count its layers. -/
theorem fits_of_round (ok : ((round settings).run s).result = .ok rounding) :
    s.failure ≠ some .rounding ∧ fitsMemory s.slots countBytes = true := by
  rw [round, run_read_bind] at ok
  obtain ⟨_, healthy, ok⟩ := result_lift_bind_eq_ok_iff.mp ok
  obtain ⟨_, even, -⟩ := result_lift_bind_eq_ok_iff.mp ok
  constructor
  · intro fails
    rw [checkFailure, if_pos fails] at healthy
    cases healthy
  · by_contra unfit
    rw [evenWeights, if_neg unfit] at even
    cases even

end Success

variable {K : Type} [Field K] [LinearOrder K] [IsStrictOrderedRing K] [Scalar K] [ExactScalar K]

omit [LinearOrder K] [IsStrictOrderedRing K] [ExactScalar K] in
/-- The bound that comes with an answer is the one that the solver has from then on. -/
theorem bound_of_round {s : Solver K} {settings : RoundingSettings K} {rounding : Rounding K}
    (ok : ((round settings).run s).result = .ok rounding) (intact : s.intact = true) :
    ((round settings).run s).state.bound = rounding.bound := by
  obtain ⟨healthy, fits⟩ := fits_of_round ok
  have agreed := roundFrom_of_round ok
  rw [(yields_round healthy fits agreed).state, bound, if_pos intact]
  exact (s.evenAscent.readOff_of_roundFrom agreed).1.bound.symm

omit [IsStrictOrderedRing K] in
/-- In some costs, the layers of every variable prefer the same branch exactly if no variable's
votes disagree. -/
theorem agrees_evenAscent_iff {s : Solver K} (c : Costs (Vector K s.layers)) :
    Ascent.agrees (s.evenAscent.votes c) = true ↔
      ∀ l l', s.diagrams.slotOf.get l = s.diagrams.slotOf.get l' →
        s.diagrams.slotOf.get l ≠ Fin.last s.diagrams.primals →
          (c.highCost l < c.lo.get l ↔ c.highCost l' < c.lo.get l') := by
  simp only [← ExactScalar.lt_iff]
  constructor
  · intro agree l l' same variable_slot
    obtain ⟨v, here⟩ := Fin.exists_castSucc_eq.mpr variable_slot
    have calm := Ascent.agrees_iff.mp agree v
    have side {i : Fin s.layers} (there : s.diagrams.slotOf.get i = v.castSucc) :=
      Ascent.takesHigh_eq_someHigh (a := s.evenAscent) calm there
    exact Bool.eq_iff_iff.mp ((side here.symm).trans (side (same ▸ here.symm)).symm)
  · intro alike
    refine Ascent.agrees_iff.mpr fun v => ?_
    by_cases cast : ∃ l, s.diagrams.slotOf.get l = v.castSucc
    · obtain ⟨l, here⟩ := cast
      have side (l' : Fin s.layers) (there : s.diagrams.slotOf.get l' = v.castSucc) :
          c.takesHigh l' = c.takesHigh l := by
        have same : s.diagrams.slotOf.get l' = s.diagrams.slotOf.get l := there.trans here.symm
        refine Bool.eq_iff_iff.mpr (alike l' l same ?_)
        exact there ▸ (Fin.castSucc_lt_last v).ne
      exact Ascent.disagree_eq_false_of_takesHigh side
    · have uncast (l : Fin s.layers) (here : s.diagrams.slotOf.get l = v.castSucc) :
          c.takesHigh l = false := absurd ⟨l, here⟩ cast
      exact Ascent.disagree_eq_false_of_takesHigh uncast

/-- An answer of rounding is certified by the costs left behind.  There every layer of a variable
prefers the branch that is assigned, all layers together cost the bound if they take it, and no
assignment makes them cost less.  Rounding answers without a push exactly if the layers of every
variable agreed before, and then leaves the costs alone; otherwise it pushes fewer than a hundred
times and, if no push lowers a cost, does not lower the bound. -/
theorem round_certified (s : Solver K) {settings : RoundingSettings K} {rounding : Rounding K}
    (ok : ((round settings).run s).result = .ok rounding) :
    ∃ final : Costs (Vector K s.layers),
      ((round settings).run s).state = { s with costs := final } ∧
      rounding.assignment.length = s.diagrams.primals ∧
      (∀ l, s.diagrams.slotOf.get l ≠ Fin.last s.diagrams.primals →
        rounding.assignment[(s.diagrams.slotOf.get l).val]? =
          some (decide (final.hi.get l + final.deferred.get l < final.lo.get l))) ∧
      rounding.bound =
        final.assigned s.diagrams.slotOf (fun v => rounding.assignment.getD v false) ∧
      (∀ assignment, rounding.bound ≤ final.assigned s.diagrams.slotOf assignment) ∧
      (rounding.rounds = 0 ↔
        ∀ l l', s.diagrams.slotOf.get l = s.diagrams.slotOf.get l' →
          s.diagrams.slotOf.get l ≠ Fin.last s.diagrams.primals →
            (s.costs.highCost l < s.costs.lo.get l ↔ s.costs.highCost l' < s.costs.lo.get l')) ∧
      (rounding.rounds = 0 → final = s.costs) ∧
      rounding.rounds < 100 ∧
      (0 ≤ settings.delta → 0 ≤ settings.growth → s.costs.bound ≤ rounding.bound) := by
  obtain ⟨healthy, fits⟩ := fits_of_round ok
  have agreed := roundFrom_of_round ok
  obtain ⟨answer, -, few⟩ := s.evenAscent.readOff_of_roundFrom agreed
  obtain ⟨at_once, unmoved⟩ := s.evenAscent.rounds_eq_iff_agrees agreed
  let final := (s.evenAscent.roundFrom settings mostRounds 0 settings.delta s.costs).1
  have entry (l : Fin s.layers)
      (variable_slot : s.diagrams.slotOf.get l ≠ Fin.last s.diagrams.primals) :
      rounding.assignment[(s.diagrams.slotOf.get l).val]? = some (final.takesHigh l) := by
    obtain ⟨v, here⟩ := Fin.exists_castSucc_eq.mpr variable_slot
    rw [Ascent.takesHigh_eq_someHigh (a := s.evenAscent) (Ascent.agrees_iff.mp answer.agree v)
      here.symm, answer.assignment, ← here]
    simp
  have branch (l : Fin s.layers) : final.takesHigh l =
      decide (final.hi.get l + final.deferred.get l < final.lo.get l) := by
    rw [Bool.eq_iff_iff, decide_eq_true_iff]
    exact ExactScalar.lt_iff _ _
  have charged : final.bound =
      final.assigned s.diagrams.slotOf fun v => rounding.assignment.getD v false := by
    refine Costs.bound_eq_assigned fun l variable_slot => ?_
    rw [List.getD_eq_getElem?_getD, entry l variable_slot, Option.getD_some]
  refine ⟨final, (yields_round healthy fits agreed).state, ?_, fun l variable_slot => ?_,
    answer.bound.trans charged, fun assignment => ?_, ?_, unmoved, ?_, fun nonneg grows => ?_⟩
  · rw [answer.assignment, List.length_map, List.length_finRange]
  · rw [entry l variable_slot, branch]
  · exact answer.bound.trans_le (final.bound_le_assigned s.diagrams.slotOf assignment)
  · exact at_once.trans (agrees_evenAscent_iff s.costs)
  · rwa [Nat.zero_add] at few
  · rw [answer.bound]
    exact Ascent.bound_le_roundFrom (fun _ _ _ => rfl)
      (Ascent.sharesSlots_evenWeights s.diagrams.slotOf _) s.averages_evenAscent grows mostRounds 0
      nonneg s.costs

/-- The contested solver is pushed once, and its answer costs what the bound says. -/
theorem contested_certified :
    ∃ (rounding : Rounding ℚ) (final : Costs (Vector ℚ contested.layers)),
      ((round ⟨1, 6 / 5, 2⟩).run contested).result = .ok rounding ∧
      ((round ⟨1, 6 / 5, 2⟩).run contested).state = { contested with costs := final } ∧
      rounding.rounds = 1 ∧ rounding.assignment = [true, false, false] ∧
      rounding.bound = final.assigned contested.diagrams.slotOf
        (fun v => rounding.assignment.getD v false) ∧
      contested.costs.bound ≤ rounding.bound := by
  have answered : ((round ⟨1, 6 / 5, 2⟩).run contested).result.toOption.map
      (fun rounding => (rounding.rounds, rounding.assignment)) =
        some (1, [true, false, false]) := by
    decide +kernel
  obtain ⟨rounding, found, both⟩ := Option.map_eq_some_iff.mp answered
  rw [toOption_eq_some_iff] at found
  obtain ⟨final, state, -, -, charged, -, -, -, -, above⟩ := round_certified contested found
  exact ⟨rounding, final, found, state, congrArg Prod.fst both, congrArg Prod.snd both, charged,
    above (by norm_num) (by norm_num)⟩

end DualAscent.Solver
