import DualAscent.Ascent.Step
import DualAscent.Proofs.Exact
import DualAscent.Proofs.GroupedSum
import Mathlib.Algebra.Order.BigOperators.Ring.Finset
import Mathlib.Tactic.Ring

/-!
# Dual steps keep the problem

An assignment of the slots has an energy: what the layers cost if each takes the branch of its
slot.  A step with one damping factor per slot and weights that share every slot out keeps the
energy of all assignments, and if it is damped it never lowers the total bound, which lies below
every energy.
-/

namespace DualAscent

variable {K : Type} {slots n : Nat}

namespace Costs

/-- Cost of all layers if each takes the branch that is assigned to its slot. -/
def energy [AddCommMonoid K] (c : Costs (Vector K n)) (slotOf : Vector (Fin slots) n)
    (assignment : Fin slots → Bool) : K :=
  ∑ l, if assignment (slotOf.get l) then c.highCost l else c.lo.get l

section Order

variable [Field K] [LinearOrder K] [IsStrictOrderedRing K] [Scalar K] [ExactScalar K]

omit [IsStrictOrderedRing K] in
theorem bound_eq_sum (c : Costs (Vector K n)) :
    c.bound = ∑ l, min (c.lo.get l) (c.highCost l) := by
  rw [bound, sumInOrder_eq_sum]
  simp only [get_branchMinima, ExactScalar.min_eq]

/-- The cheaper branches cost at most what any assignment does. -/
theorem bound_le_energy (c : Costs (Vector K n)) (slotOf : Vector (Fin slots) n)
    (assignment : Fin slots → Bool) : c.bound ≤ c.energy slotOf assignment := by
  rw [bound_eq_sum]
  apply Finset.sum_le_sum
  intro l _
  split
  · exact min_le_right _ _
  · exact min_le_left _ _

/-- The bound is the cost of the low branches and the negative margins. -/
theorem bound_eq_low_add_margins (c : Costs (Vector K n)) :
    c.bound = ∑ l, c.lo.get l + ∑ l, min 0 (c.margins.get l) := by
  rw [bound_eq_sum, ← Finset.sum_add_distrib]
  apply Finset.sum_congr rfl
  intro l _
  rw [get_margins, ← min_add_add_left, add_zero, add_sub_cancel]

end Order

end Costs

namespace Ascent

/-- All layers of a slot are damped alike. -/
def DampsSlots (a : Ascent K slots n) : Prop :=
  ∀ l l', a.slotOf.get l = a.slotOf.get l' → a.damping.factor l = a.damping.factor l'

/-- The weights of the layers of every slot that has a layer sum to one. -/
def SharesSlots [CommRing K] (a : Ascent K slots n) : Prop :=
  ∀ l, ∑ l' with a.slotOf.get l' = a.slotOf.get l, a.weights.get l' = 1

section Ring

variable [CommRing K] {a : Ascent K slots n}

theorem get_margins_step (a : Ascent K slots n) (c : Costs (Vector K n)) (l : Fin n) :
    (a.step c).margins.get l =
      c.margins.get l - a.damping.factor l * a.excess c.margins (a.slotSums c) l := by
  rw [Costs.get_margins, Costs.get_margins, Costs.highCost, Costs.highCost, get_step_deferred,
    step_lo, step_hi]
  ring

theorem get_slotSums (a : Ascent K slots n) (c : Costs (Vector K n)) (slot : Fin slots) :
    (a.slotSums c).get slot = ∑ l with a.slotOf.get l = slot, c.margins.get l :=
  get_sumBy _ _ _

/-- A step takes the damped updates of its layers from the sum of a slot. -/
theorem get_slotSums_step_eq_sub (a : Ascent K slots n) (c : Costs (Vector K n))
    (slot : Fin slots) :
    (a.slotSums (a.step c)).get slot = (a.slotSums c).get slot -
      ∑ l with a.slotOf.get l = slot,
        a.damping.factor l * a.excess c.margins (a.slotSums c) l := by
  rw [get_slotSums, Finset.sum_congr rfl fun l _ => get_margins_step a c l,
    Finset.sum_sub_distrib, get_slotSums]

/-- What is taken from the layers of a slot is handed back to them in full. -/
theorem sum_excess_eq_zero (shares : a.SharesSlots) (c : Costs (Vector K n)) (l : Fin n) :
    ∑ l' with a.slotOf.get l' = a.slotOf.get l, a.excess c.margins (a.slotSums c) l' = 0 := by
  have handed : ∑ l' with a.slotOf.get l' = a.slotOf.get l,
      a.weights.get l' * (a.slotSums c).get (a.slotOf.get l') =
        (a.slotSums c).get (a.slotOf.get l) := by
    rw [← one_mul ((a.slotSums c).get (a.slotOf.get l)), ← shares l, Finset.sum_mul]
    apply Finset.sum_congr rfl
    intro l' member
    rw [(Finset.mem_filter.mp member).2]
  simp only [excess, Finset.sum_sub_distrib]
  rw [handed, get_slotSums, sub_self]

/-- The damped updates of a slot cancel as well. -/
theorem sum_update_eq_zero (damps : a.DampsSlots) (shares : a.SharesSlots)
    (c : Costs (Vector K n)) (slot : Fin slots) :
    ∑ l with a.slotOf.get l = slot,
      a.damping.factor l * a.excess c.margins (a.slotSums c) l = 0 := by
  by_cases occurs : ∃ l, a.slotOf.get l = slot
  · obtain ⟨l, rfl⟩ := occurs
    rw [← mul_zero (a.damping.factor l), ← sum_excess_eq_zero shares c l, Finset.mul_sum]
    apply Finset.sum_congr rfl
    intro l' member
    rw [damps l' l (Finset.mem_filter.mp member).2]
  · apply Finset.sum_eq_zero
    intro l member
    exact (occurs ⟨l, (Finset.mem_filter.mp member).2⟩).elim

theorem energy_step (damps : a.DampsSlots) (shares : a.SharesSlots) (c : Costs (Vector K n))
    (assignment : Fin slots → Bool) :
    (a.step c).energy a.slotOf assignment = c.energy a.slotOf assignment := by
  have layerwise : ∀ l,
      (if assignment (a.slotOf.get l) then (a.step c).highCost l else (a.step c).lo.get l) =
        (if assignment (a.slotOf.get l) then c.highCost l else c.lo.get l) -
          if assignment (a.slotOf.get l) then
            a.damping.factor l * a.excess c.margins (a.slotSums c) l
          else 0 := by
    intro l
    split
    · rw [Costs.highCost, Costs.highCost, get_step_deferred, step_hi]
      ring
    · rw [step_lo, sub_zero]
  have cancels : ∑ l, (if assignment (a.slotOf.get l) then
      a.damping.factor l * a.excess c.margins (a.slotSums c) l else 0) = 0 := by
    rw [← Finset.sum_fiberwise Finset.univ a.slotOf.get]
    apply Finset.sum_eq_zero
    intro slot _
    by_cases high : assignment slot = true
    · rw [← sum_update_eq_zero damps shares c slot]
      apply Finset.sum_congr rfl
      intro l member
      rw [(Finset.mem_filter.mp member).2, if_pos high]
    · apply Finset.sum_eq_zero
      intro l member
      rw [(Finset.mem_filter.mp member).2, if_neg high]
  rw [Costs.energy, Finset.sum_congr rfl fun l _ => layerwise l, Finset.sum_sub_distrib, cancels,
    sub_zero, Costs.energy]

/-- Any number of steps keeps the energy of all assignments. -/
theorem energy_after (damps : a.DampsSlots) (shares : a.SharesSlots) (k : Nat)
    (c : Costs (Vector K n)) (assignment : Fin slots → Bool) :
    (a.after k c).energy a.slotOf assignment = c.energy a.slotOf assignment := by
  induction k generalizing c with
  | zero => rfl
  | succ k ih => rw [after, ih, energy_step damps shares]

end Ring

section Order

variable [Field K] [LinearOrder K] [IsStrictOrderedRing K] {a : Ascent K slots n}

/-- The updates take averages: every factor lies between zero and one, and no weight is
negative. -/
structure Averages (a : Ascent K slots n) : Prop where
  weights_nonneg : ∀ l, 0 ≤ a.weights.get l
  factor_nonneg : ∀ l, 0 ≤ a.damping.factor l
  factor_le_one : ∀ l, a.damping.factor l ≤ 1

private theorem min_zero_average {damping share margin total : K} (damping_nonneg : 0 ≤ damping)
    (damping_le : damping ≤ 1) (share_nonneg : 0 ≤ share) :
    (1 - damping) * min 0 margin + damping * (share * min 0 total) ≤
      min 0 (margin - damping * (margin - share * total)) := by
  have kept_nonneg : 0 ≤ 1 - damping := sub_nonneg.mpr damping_le
  have handed_nonneg : 0 ≤ damping * share := mul_nonneg damping_nonneg share_nonneg
  have kept_le_zero := mul_le_mul_of_nonneg_left (min_le_left 0 margin) kept_nonneg
  have kept_le_margin := mul_le_mul_of_nonneg_left (min_le_right 0 margin) kept_nonneg
  have handed_le_zero := mul_le_mul_of_nonneg_left (min_le_left 0 total) handed_nonneg
  have handed_le_total := mul_le_mul_of_nonneg_left (min_le_right 0 total) handed_nonneg
  refine le_min ?_ ?_ <;> linarith

/-- The negative parts of a slot's margins only shrink. -/
theorem sum_min_margins_le_step (damps : a.DampsSlots) (shares : a.SharesSlots)
    (averages : a.Averages) (c : Costs (Vector K n)) (slot : Fin slots) :
    ∑ l with a.slotOf.get l = slot, min 0 (c.margins.get l) ≤
      ∑ l with a.slotOf.get l = slot, min 0 ((a.step c).margins.get l) := by
  by_cases occurs : ∃ l, a.slotOf.get l = slot
  · obtain ⟨l, rfl⟩ := occurs
    let damping := a.damping.factor l
    let total := (a.slotSums c).get (a.slotOf.get l)
    have below_total : ∑ l' with a.slotOf.get l' = a.slotOf.get l, min 0 (c.margins.get l') ≤
        min 0 total := by
      refine le_min (Finset.sum_nonpos fun l' _ => min_le_left _ _) ?_
      rw [show total = _ from get_slotSums a c _]
      exact Finset.sum_le_sum fun l' _ => min_le_right _ _
    calc
      ∑ l' with a.slotOf.get l' = a.slotOf.get l, min 0 (c.margins.get l')
        ≤ (1 - damping) * ∑ l' with a.slotOf.get l' = a.slotOf.get l, min 0 (c.margins.get l') +
            damping * min 0 total := by
          have := mul_le_mul_of_nonneg_left below_total (averages.factor_nonneg l)
          linarith
      _ = ∑ l' with a.slotOf.get l' = a.slotOf.get l,
            ((1 - damping) * min 0 (c.margins.get l') +
              damping * (a.weights.get l' * min 0 total)) := by
          rw [Finset.sum_add_distrib, ← Finset.mul_sum, ← Finset.mul_sum, ← Finset.sum_mul,
            shares l, one_mul]
      _ ≤ ∑ l' with a.slotOf.get l' = a.slotOf.get l, min 0 ((a.step c).margins.get l') := by
          apply Finset.sum_le_sum
          intro l' member
          have same := (Finset.mem_filter.mp member).2
          rw [get_margins_step, excess, damps l' l same, same]
          exact min_zero_average (averages.factor_nonneg l) (averages.factor_le_one l)
            (averages.weights_nonneg l')
  · refine (Finset.sum_eq_zero fun l member => ?_).trans_le
      (Finset.sum_eq_zero fun l member => ?_).ge
    all_goals exact (occurs ⟨l, (Finset.mem_filter.mp member).2⟩).elim

variable [Scalar K] [ExactScalar K]

theorem bound_le_step (damps : a.DampsSlots) (shares : a.SharesSlots) (averages : a.Averages)
    (c : Costs (Vector K n)) : c.bound ≤ (a.step c).bound := by
  rw [Costs.bound_eq_low_add_margins, Costs.bound_eq_low_add_margins, step_lo,
    ← Finset.sum_fiberwise Finset.univ a.slotOf.get fun l => min 0 (c.margins.get l),
    ← Finset.sum_fiberwise Finset.univ a.slotOf.get fun l => min 0 ((a.step c).margins.get l)]
  have slotwise := Finset.sum_le_sum fun slot (_ : slot ∈ Finset.univ) =>
    sum_min_margins_le_step damps shares averages c slot
  exact add_le_add_right slotwise _

/-- Damped steps never lower the total bound. -/
theorem bound_le_after (damps : a.DampsSlots) (shares : a.SharesSlots) (averages : a.Averages)
    (k : Nat) (c : Costs (Vector K n)) : c.bound ≤ (a.after k c).bound := by
  induction k generalizing c with
  | zero => exact le_rfl
  | succ k ih => exact (bound_le_step damps shares averages c).trans (ih (a.step c))

omit [IsStrictOrderedRing K] in
theorem get_evenWeights (slotOf : Vector (Fin slots) n) (l : Fin n) :
    (evenWeights slotOf : Vector K n).get l =
      1 / ((Finset.univ.filter fun l' => slotOf.get l' = slotOf.get l).card : K) := by
  have entry : (evenWeights slotOf : Vector K n).get l = Scalar.div Scalar.one
      (Scalar.ofNat ((countBy slotOf fun _ => true).get (slotOf.get l))) :=
    Vector.getElem_ofFn l.isLt
  rw [entry, ExactScalar.div_eq, ExactScalar.one_eq, ExactScalar.ofNat_eq, get_countBy]
  simp

/-- Even weights share every slot out. -/
theorem sharesSlots_evenWeights (slotOf : Vector (Fin slots) n)
    (damping : Damping K (Vector K n)) : SharesSlots ⟨slotOf, evenWeights slotOf, damping⟩ := by
  intro l
  have occupied : 0 < (Finset.univ.filter fun l' => slotOf.get l' = slotOf.get l).card :=
    Finset.card_pos.mpr ⟨l, Finset.mem_filter.mpr ⟨Finset.mem_univ l, rfl⟩⟩
  have even : ∀ l' ∈ Finset.univ.filter fun l' => slotOf.get l' = slotOf.get l,
      (evenWeights slotOf : Vector K n).get l' =
        1 / ((Finset.univ.filter fun l' => slotOf.get l' = slotOf.get l).card : K) := by
    intro l' member
    rw [get_evenWeights, (Finset.mem_filter.mp member).2]
  rw [Finset.sum_congr rfl even, Finset.sum_const, nsmul_eq_mul, mul_one_div, div_self]
  exact_mod_cast occupied.ne'

end Order

end Ascent

end DualAscent
