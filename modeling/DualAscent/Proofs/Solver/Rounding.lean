import DualAscent.Proofs.Ascent.Rounding
import DualAscent.Proofs.Diagrams
import DualAscent.Proofs.Procedure
import DualAscent.Solver.Runs
import Mathlib.Tactic.NormNum

/-!
# What rounding returns

Rounding pushes the layers of a variable back and forth until they agree.  What it returns is
nevertheless decided before it starts: every variable gets the branch that is cheaper for all its
layers together.
-/

namespace DualAscent

namespace Solver

open Procedure

variable {K : Type} [Field K] [Scalar K]

/-- What the high branches of a slot's layers cost more than the low ones. -/
def slotMargin (s : Solver K) (slot : Fin s.slots) : K :=
  ∑ l with s.diagrams.slotOf.get l = slot,
    (s.costs.hi.get l + s.costs.deferred.get l - s.costs.lo.get l)

/-- An answer comes from rounds with even weights that agreed. -/
theorem roundFrom_of_round {s : Solver K} {settings : RoundingSettings K} {rounding : Rounding K}
    (ok : ((round settings).run s).result = .ok rounding) :
    (Ascent.roundFrom ⟨s.diagrams.slotOf, Ascent.evenWeights s.diagrams.slotOf,
      .shared Scalar.half⟩ settings mostRounds 0 settings.delta s.costs).2 = some rounding := by
  rw [round, run_read_bind] at ok
  obtain ⟨_, -, ok⟩ := result_lift_bind_eq_ok_iff.mp ok
  obtain ⟨weights, even, ok⟩ := result_lift_bind_eq_ok_iff.mp ok
  have weights_eq : weights = Ascent.evenWeights s.diagrams.slotOf := by
    rw [evenWeights] at even
    split at even
    · cases even
      rfl
    · cases even
  subst weights_eq
  dsimp only at ok
  cases agreed : (Ascent.roundFrom ⟨s.diagrams.slotOf, Ascent.evenWeights s.diagrams.slotOf,
      .shared Scalar.half⟩ settings mostRounds 0 settings.delta s.costs).2 with
  | none =>
      rw [agreed] at ok
      cases ok
  | some other =>
      rw [agreed] at ok
      cases ok
      rfl

variable [LinearOrder K] [IsStrictOrderedRing K] [ExactScalar K]

/-- What rounding returns for every variable, in terms of the costs before it. -/
theorem assignment_of_round (s : Solver K) {settings : RoundingSettings K}
    (nonneg : 0 ≤ settings.delta) (grows : 0 ≤ settings.growth) {rounding : Rounding K}
    (ok : ((round settings).run s).result = .ok rounding) :
    rounding.assignment = (List.finRange s.diagrams.primals).map fun v =>
      decide (s.slotMargin v.castSucc < 0) := by
  rw [Ascent.assignment_of_roundFrom (fun _ _ _ => rfl)
    (Ascent.sharesSlots_evenWeights s.diagrams.slotOf _) grows nonneg (roundFrom_of_round ok)]
  apply List.map_congr_left
  intro v _
  rw [decide_eq_decide, Ascent.get_slotSums, slotMargin]
  simp only [Costs.get_margins, Costs.highCost]

/-- Rounding that succeeds gives a variable the high branch exactly if the high branches of all its
layers together cost less than the low ones, and a variable without a layer the low branch.  How
hard it pushes and how long it iterates in between makes no difference. -/
theorem round_takes_cheaper_side (s : Solver K) {settings : RoundingSettings K}
    (nonneg : 0 ≤ settings.delta) (grows : 0 ≤ settings.growth) {rounding : Rounding K}
    (ok : ((round settings).run s).result = .ok rounding) :
    rounding.assignment.length = s.diagrams.primals ∧
      (∀ v : Fin s.diagrams.primals, ∃ value, rounding.assignment[v.val]? = some value ∧
        (value = true ↔ s.slotMargin v.castSucc < 0) ∧
        ((∀ chain ∈ s.diagrams.chains, v ∉ chain) → value = false)) ∧
      ∀ (settings' : RoundingSettings K) (rounding' : Rounding K), 0 ≤ settings'.delta →
        0 ≤ settings'.growth → ((round settings').run s).result = .ok rounding' →
          rounding'.assignment = rounding.assignment := by
  have sides := assignment_of_round s nonneg grows ok
  refine ⟨?_, fun v => ⟨decide (s.slotMargin v.castSucc < 0), ?_, ?_, fun uncovered => ?_⟩, ?_⟩
  · rw [sides, List.length_map, List.length_finRange]
  · simp [sides]
  · rw [decide_eq_true_iff]
  · rw [decide_eq_false_iff_not, slotMargin, Finset.sum_eq_zero]
    · exact lt_irrefl 0
    · intro l member
      obtain ⟨chain, there, covered⟩ :=
        Diagrams.exists_layer_iff.mp ⟨l, (Finset.mem_filter.mp member).2⟩
      exact absurd covered (uncovered chain there)
  · intro settings' rounding' nonneg' grows' ok'
    rw [sides, assignment_of_round s nonneg' grows' ok']

/-- Two chains whose layers disagree about both of their variables; a third one has no layer. -/
def contested : Solver ℚ where
  diagrams :=
    let both := (List.finRange 2).map Fin.castSucc
    ⟨3, [both, both.reverse]⟩
  costs := ⟨⟨#v[0, 0, 0, 0, 0, 0], #v[-5, -2, 0, 3, 1, 0]⟩, #v[0, 0, 0, 0, 0, 0]⟩
  limit := none
  failure := none
  pending := []
  replays := #[]
  intact := true

/-- One push with two steps and four pushes without steps lead to the same assignment. -/
theorem contested_takes_cheaper_side :
    ∃ rounding rounding' : Rounding ℚ,
      ((round ⟨1, 6 / 5, 2⟩).run contested).result = .ok rounding ∧
      ((round ⟨1 / 2, 1, 0⟩).run contested).result = .ok rounding' ∧
      rounding.rounds = 1 ∧ rounding'.rounds = 4 ∧ rounding.assignment = [true, false, false] ∧
      rounding'.assignment = rounding.assignment ∧
      contested.slotMargin 0 = -4 ∧ contested.slotMargin 1 = 1 := by
  have answered : ((round ⟨1, 6 / 5, 2⟩).run contested).result.toOption.map
      (fun rounding => (rounding.rounds, rounding.assignment)) =
        some (1, [true, false, false]) := by
    decide +kernel
  have answered' : ((round ⟨1 / 2, 1, 0⟩).run contested).result.toOption.map
      (fun rounding => rounding.rounds) = some 4 := by decide +kernel
  obtain ⟨rounding, found, both⟩ := Option.map_eq_some_iff.mp answered
  obtain ⟨rounding', found', rounds'⟩ := Option.map_eq_some_iff.mp answered'
  rw [toOption_eq_some_iff] at found found'
  obtain ⟨-, -, agree⟩ := round_takes_cheaper_side contested (by norm_num) (by norm_num) found
  exact ⟨rounding, rounding', found, found', congrArg Prod.fst both, rounds',
    congrArg Prod.snd both, agree ⟨1 / 2, 1, 0⟩ rounding' (by norm_num) (by norm_num) found',
    by decide +kernel, by decide +kernel⟩

end Solver

end DualAscent
