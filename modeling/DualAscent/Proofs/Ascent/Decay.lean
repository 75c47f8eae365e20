import DualAscent.Proofs.Ascent.Rounding
import DualAscent.Proofs.Ascent.Run
import Mathlib.Tactic.LinearCombination

/-!
# Improvements decay

If all layers are damped by the same factor and every slot is shared out, a step moves the margin of
every layer by that factor towards its share of the slot's sum, which stays.  The margins run along
straight lines then, and the bound is a sum of minima on them: each step improves it by at most the
undamped part of what the step before did.
-/

namespace DualAscent

variable {slots n : Nat}

namespace Ascent

section Ring

variable {R : Type} [CommRing R] {a : Ascent R slots n} {factor : R}

omit [CommRing R] in
theorem dampsSlots_of_shared (shared : a.damping = .shared factor) : a.DampsSlots := by
  intro l l' _
  rw [shared, Damping.factor_shared, Damping.factor_shared]

/-- A step leaves the undamped part of what a margin exceeds its share by. -/
theorem excess_step (shared : a.damping = .shared factor) (shares : a.SharesSlots)
    (c : Costs (Vector R n)) (l : Fin n) :
    a.excess (a.step c).margins (a.slotSums (a.step c)) l =
      (1 - factor) * a.excess c.margins (a.slotSums c) l := by
  rw [excess, get_margins_step, get_slotSums_step (dampsSlots_of_shared shared) shares, shared,
    Damping.factor_shared, excess]
  ring

theorem excess_after (shared : a.damping = .shared factor) (shares : a.SharesSlots) (k : Nat)
    (c : Costs (Vector R n)) (l : Fin n) :
    a.excess (a.after k c).margins (a.slotSums (a.after k c)) l =
      (1 - factor) ^ k * a.excess c.margins (a.slotSums c) l := by
  induction k generalizing c with
  | zero => rw [after, pow_zero, one_mul]
  | succ k ih => rw [after, ih, excess_step shared shares, pow_succ, mul_assoc]

/-- After `k` steps a margin is off its share by the `k`-th power of the undamped part. -/
theorem get_margins_after (shared : a.damping = .shared factor) (shares : a.SharesSlots) (k : Nat)
    (c : Costs (Vector R n)) (l : Fin n) :
    (a.after k c).margins.get l = a.weights.get l * (a.slotSums c).get (a.slotOf.get l) +
      (1 - factor) ^ k *
        (c.margins.get l - a.weights.get l * (a.slotSums c).get (a.slotOf.get l)) := by
  have off := excess_after shared shares k c l
  rw [excess, excess, get_slotSums_after (dampsSlots_of_shared shared) shares] at off
  rw [← off, add_sub_cancel]

end Ring

section Order

variable {K : Type} [Field K] [LinearOrder K] [IsStrictOrderedRing K] {a : Ascent K slots n}
  {factor : K}

/-- The negative part of a margin bends down along its line. -/
theorem min_margins_concave (shared : a.damping = .shared factor) (shares : a.SharesSlots)
    (undamped : 0 ≤ 1 - factor) (c : Costs (Vector K n)) (l : Fin n) :
    min 0 ((a.step (a.step c)).margins.get l) + (1 - factor) * min 0 (c.margins.get l) ≤
      (2 - factor) * min 0 ((a.step c).margins.get l) := by
  have first := excess_step shared shares c l
  have second := excess_step shared shares (a.step c) l
  have kept (c : Costs (Vector K n)) :=
    get_slotSums_step (dampsSlots_of_shared shared) shares c (a.slotOf.get l)
  simp only [excess, kept] at first second
  generalize (a.step (a.step c)).margins.get l = last at *
  generalize (a.step c).margins.get l = middle at *
  generalize c.margins.get l = start at *
  have line : (2 - factor) * middle = last + (1 - factor) * start := by
    linear_combination first - second
  have start_le_zero := mul_le_mul_of_nonneg_left (min_le_left 0 start) undamped
  have start_le := mul_le_mul_of_nonneg_left (min_le_right 0 start) undamped
  have scale : 0 ≤ 2 - factor := by linarith
  rw [mul_min_of_nonneg _ _ scale, line, mul_zero]
  refine le_min ?_ ?_
  · linarith [min_le_left 0 last]
  · linarith [min_le_right 0 last]

variable [Scalar K] [ExactScalar K]

theorem improvement_step_le (shared : a.damping = .shared factor) (shares : a.SharesSlots)
    (undamped : 0 ≤ 1 - factor) (c : Costs (Vector K n)) :
    (a.step (a.step c)).bound - (a.step c).bound ≤
      (1 - factor) * ((a.step c).bound - c.bound) := by
  have layerwise := Finset.sum_le_sum fun l (_ : l ∈ Finset.univ) =>
    min_margins_concave shared shares undamped c l
  rw [Finset.sum_add_distrib, ← Finset.mul_sum, ← Finset.mul_sum] at layerwise
  simp only [Costs.bound_eq_low_add_margins, step_lo]
  linarith

/-- Every improvement is at most the undamped part of the one before. -/
theorem improvement_succ_le (shared : a.damping = .shared factor) (shares : a.SharesSlots)
    (undamped : 0 ≤ 1 - factor) (c : Costs (Vector K n)) (k : Nat) :
    a.improvement c (k + 1) ≤ (1 - factor) * a.improvement c k := by
  simp only [improvement, after_succ]
  exact improvement_step_le shared shares undamped (a.after k c)

theorem improvement_nonneg (damps : a.DampsSlots) (shares : a.SharesSlots) (averages : a.Averages)
    (c : Costs (Vector K n)) (k : Nat) : 0 ≤ a.improvement c k := by
  rw [improvement, after_succ]
  exact sub_nonneg.mpr (bound_le_step damps shares averages _)

theorem improvement_le_pow (shared : a.damping = .shared factor) (shares : a.SharesSlots)
    (undamped : 0 ≤ 1 - factor) (c : Costs (Vector K n)) (k : Nat) :
    a.improvement c k ≤ (1 - factor) ^ k * a.improvement c 0 := by
  induction k with
  | zero => rw [pow_zero, one_mul]
  | succ k ih =>
      calc
        a.improvement c (k + 1)
          ≤ (1 - factor) * a.improvement c k := improvement_succ_le shared shares undamped c k
        _ ≤ (1 - factor) * ((1 - factor) ^ k * a.improvement c 0) :=
            mul_le_mul_of_nonneg_left ih undamped
        _ = (1 - factor) ^ (k + 1) * a.improvement c 0 := by rw [pow_succ', mul_assoc]

/-- A run settles at the latest when the power of the undamped part has fallen to its slope. -/
theorem steps_run_le (shared : a.damping = .shared factor) (shares : a.SharesSlots)
    (averages : a.Averages) (undamped : 0 ≤ 1 - factor) (c : Costs (Vector K n))
    {rule : StopRule K} (positive : 0 < rule.slope) {k : Nat} (some_steps : 2 ≤ k)
    (fallen : (1 - factor) ^ (k - 1) ≤ rule.slope) (limit : Nat) :
    (a.run rule limit (Progress.start c)).1.steps ≤ k := by
  by_contra longer
  have first_nonneg := improvement_nonneg (dampsSlots_of_shared shared) shares averages c 0
  have goes_on := (a.follows_start c).settles_eq_false rule limit (Nat.zero_le (k - 1)) (by omega)
  have settled : rule.settles (a.reference c (k - 1)) (a.improvement c (k - 1)) = true := by
    have small : a.improvement c (k - 1) ≤ rule.slope * Scalar.abs (a.improvement c 0) := by
      have not_below : ¬Scalar.lt (a.improvement c 0) 0 = true := by
        rw [ExactScalar.lt_iff]
        exact not_lt.mpr first_nonneg
      rw [Scalar.abs, if_neg not_below]
      exact (improvement_le_pow shared shares undamped c (k - 1)).trans
        (mul_le_mul_of_nonneg_right fallen first_nonneg)
    rw [reference, if_neg (by omega), StopRule.settles, (ExactScalar.lt_iff _ _).mpr positive,
      (ExactScalar.le_iff _ _).mpr small]
    rfl
  exact absurd settled (by rw [goes_on]; exact Bool.false_ne_true)

end Order

end Ascent

end DualAscent
