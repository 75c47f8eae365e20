import DualAscent.Proofs.Ascent.Agreement
import DualAscent.Proofs.Solver.Iterate
import DualAscent.Proofs.Solver.Rounding

/-!
# Rounding answers

The margins that a solver starts from tell how many pushes rounding needs at most: as many as the
first one has to be taken to cover each of them.  If that is fewer than the rounds that rounding may
make, it answers.
-/

namespace DualAscent.Solver

open Procedure

section Answer

variable {α : Type} [Scalar α] [Zero α] [Add α] [Sub α] [Mul α]

/-- The dual ascent between two rounds. -/
def evenAscent (s : Solver α) : Ascent α s.slots s.layers :=
  s.ascent (Ascent.evenWeights s.diagrams.slotOf) (.shared Scalar.half)

/-- The costs after some rounds, whether or not rounding goes on for so long. -/
def roundedCosts (s : Solver α) (settings : RoundingSettings α) (rounds : Nat) :
    Costs (Vector α s.layers) :=
  s.evenAscent.afterRounds settings rounds settings.delta s.costs

/-- The solver answers with what its rounds agree on. -/
theorem yields_round {s : Solver α} {settings : RoundingSettings α} {rounding : Rounding α}
    (healthy : s.failure ≠ some .rounding) (fits : fitsMemory s.slots countBytes = true)
    (agreed : (s.evenAscent.roundFrom settings mostRounds 0 settings.delta s.costs).2 =
      some rounding) :
    (round settings).Yields s
      { s with
        costs := (s.evenAscent.roundFrom settings mostRounds 0 settings.delta s.costs).1 }
      rounding := by
  have calm : s.checkFailure .rounding = .ok () := if_neg healthy
  have even : s.evenWeights = .ok (Ascent.evenWeights s.diagrams.slotOf) := if_pos fits
  have settled : (Ascent.roundFrom ⟨s.diagrams.slotOf, Ascent.evenWeights s.diagrams.slotOf,
      .shared Scalar.half⟩ settings mostRounds 0 settings.delta s.costs).2 = some rounding := agreed
  constructor
  all_goals
    simp only [round, run_read_bind, calm, even, run_lift_ok_bind]
    rw [settled]
    rfl

end Answer

variable {K : Type} [Field K] [LinearOrder K] [IsStrictOrderedRing K] [Scalar K] [ExactScalar K]

theorem averages_evenAscent (s : Solver K) : s.evenAscent.Averages := by
  refine ⟨fun l => ?_, fun l => ?_, fun l => ?_⟩
  · show 0 ≤ (Ascent.evenWeights s.diagrams.slotOf).get l
    rw [Ascent.get_evenWeights]
    exact one_div_nonneg.mpr (Nat.cast_nonneg _)
  all_goals
    show _ ≤ _
    rw [evenAscent, ascent, Damping.factor_shared, ExactScalar.half_eq]
    norm_num

theorem factor_evenAscent_lt_one (s : Solver K) (l : Fin s.layers) :
    s.evenAscent.damping.factor l < 1 := by
  rw [evenAscent, ascent, Damping.factor_shared, ExactScalar.half_eq]
  norm_num

omit [IsStrictOrderedRing K] [ExactScalar K] in
theorem evenAscent_within {s : Solver K} {gap : K} {slot : Fin s.slots}
    (close : ∀ l, s.diagrams.slotOf.get l = slot →
      -gap ≤ s.costs.hi.get l + s.costs.deferred.get l - s.costs.lo.get l ∧
        s.costs.hi.get l + s.costs.deferred.get l - s.costs.lo.get l < gap) :
    s.evenAscent.Within s.costs slot gap := by
  constructor
  · intro _ l here
    rw [Costs.get_margins, Costs.highCost]
    exact (close l here).1
  · intro _ l here
    rw [Costs.get_margins, Costs.highCost]
    exact (close l here).2

/-- If pushes do not shrink and a number of first pushes covers every margin of a variable's layer,
rounding answers within as many rounds.  It ends in the first round in which the layers of all
variables agree; those of a variable that agree in some round take the same branch ever after. -/
theorem round_agrees (s : Solver K) (settings : RoundingSettings K)
    (positive : 0 < settings.delta) (grows : 1 ≤ settings.growth)
    (healthy : s.failure ≠ some .rounding) (fits : fitsMemory s.slots countBytes = true) :
    let call := (round settings).run s
    let agree rounds := Ascent.agrees (s.evenAscent.votes (s.roundedCosts settings rounds))
    (∀ k : Nat, k ≤ 99 →
      (∀ l, s.diagrams.slotOf.get l ≠ Fin.last s.diagrams.primals →
        -(k * settings.delta) ≤ s.costs.hi.get l + s.costs.deferred.get l - s.costs.lo.get l ∧
          s.costs.hi.get l + s.costs.deferred.get l - s.costs.lo.get l < k * settings.delta) →
      ∃ rounding, call.result = .ok rounding ∧ rounding.rounds ≤ k) ∧
      (∀ rounding, call.result = .ok rounding →
        call.state = { s with costs := s.roundedCosts settings rounding.rounds } ∧
          agree rounding.rounds = true ∧ ∀ earlier < rounding.rounds, agree earlier = false) ∧
      ∀ (v : Fin s.diagrams.primals) (value : Bool) (earlier later : Nat), earlier ≤ later →
        (∀ l, s.diagrams.slotOf.get l = v.castSucc →
          (s.roundedCosts settings earlier).takesHigh l = value) →
        ∀ l, s.diagrams.slotOf.get l = v.castSucc →
          (s.roundedCosts settings later).takesHigh l = value := by
  have shares : s.evenAscent.SharesSlots := Ascent.sharesSlots_evenWeights s.diagrams.slotOf _
  have damps : s.evenAscent.DampsSlots := fun _ _ _ => rfl
  have averages := s.averages_evenAscent
  have partly := s.factor_evenAscent_lt_one
  refine ⟨fun k few close => ?_, fun rounding ok => ?_, fun v value earlier later le same => ?_⟩
  · have within (v : Fin s.diagrams.primals) :
        s.evenAscent.Within s.costs v.castSucc (k * settings.delta) :=
      evenAscent_within fun l here => close l (here ▸ (Fin.castSucc_lt_last v).ne)
    obtain ⟨rounding, agreed, rounds⟩ := Ascent.roundFrom_agrees damps shares averages partly grows
      positive.le (Nat.lt_succ_of_le few) 0 (le_refl settings.delta) within
    exact ⟨rounding, (yields_round healthy fits agreed).result, by omega⟩
  · have agreed := roundFrom_of_round ok
    obtain ⟨rounds, counted, reached, last, before⟩ := s.evenAscent.roundFrom_eq_afterRounds agreed
    obtain rfl : rounding.rounds = rounds := counted.trans (Nat.zero_add rounds)
    refine ⟨(yields_round healthy fits agreed).state.trans ?_, last, before⟩
    rw [reached, roundedCosts]
  · exact Ascent.takesHigh_afterRounds damps shares averages partly settings le settings.delta same

/-- Ten pushes of one half cover the largest margin of the contested solver; four are enough for an
agreement, and then its first variable takes the high branch for good. -/
theorem contested_agrees :
    ∃ rounding, ((round ⟨1 / 2, 1, 0⟩).run contested).result = .ok rounding ∧
      rounding.rounds ≤ 10 ∧
      ∀ later ≥ 4, ∀ l, contested.diagrams.slotOf.get l = 0 →
        (contested.roundedCosts ⟨1 / 2, 1, 0⟩ later).takesHigh l = true := by
  obtain ⟨answers, -, stays⟩ := round_agrees contested ⟨1 / 2, 1, 0⟩ (by norm_num) (le_refl 1)
    (by decide) (by decide)
  obtain ⟨rounding, ok, rounds⟩ := answers 10 (by decide) (by decide +kernel)
  exact ⟨rounding, ok, rounds, fun later enough =>
    stays ⟨0, by decide⟩ true 4 later enough (by decide +kernel)⟩

/-- A solver with more variables than their layers can be counted for. -/
def crowded : Solver ℚ :=
  .ofDiagrams ⟨1152921504606846976, [[.last 1152921504606846975]]⟩ none none

/-- Without memory for the counts rounding fails, close as the margins may be. -/
theorem crowded_round_fails :
    crowded.failure = none ∧
      (∀ l, -((1 : Nat) * 1) ≤ crowded.costs.hi.get l + crowded.costs.deferred.get l -
          crowded.costs.lo.get l ∧
        crowded.costs.hi.get l + crowded.costs.deferred.get l - crowded.costs.lo.get l <
          (1 : Nat) * 1) ∧
      ¬∃ rounding, ((round ⟨1, 1, 0⟩).run crowded).result = .ok rounding := by
  refine ⟨rfl, by decide +kernel, ?_⟩
  rintro ⟨rounding, ok⟩
  have failed : ((round ⟨1, 1, 0⟩).run crowded).result.toOption.isSome = false := by
    decide +kernel
  rw [ok] at failed
  cases failed

end DualAscent.Solver
