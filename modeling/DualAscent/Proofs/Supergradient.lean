import DualAscent.Ascent.Margins
import DualAscent.Proofs.Entries
import DualAscent.Proofs.Exact
import DualAscent.Proofs.GroupedSum
import Mathlib.Algebra.Order.BigOperators.Group.Finset

/-!
# Supergradients of chain bounds

A chain's bound adds up the costs of the branches that its layers take.  If every layer charges
only the branch that it takes for a change of the costs, the bounds gain at most what is charged,
and exactly as much if no layer changes its branch.
-/

namespace DualAscent

namespace Costs

variable {n chains : Nat}

/-- The gradient of the chains' bounds, which every layer hands to the branch that it takes. -/
def boundGradient {α : Type} [Scalar α] [Zero α] [Add α] (c : Costs (Vector α n))
    (chainOf : Vector (Fin chains) n) (outer : Vector α chains) : Branches (Vector α n) where
  lo := Vector.ofFn fun l => if c.takesHigh l then 0 else 0 + outer.get (chainOf.get l)
  hi := Vector.ofFn fun l => if c.takesHigh l then outer.get (chainOf.get l) else 0

variable {K : Type} [Field K] [LinearOrder K] [IsStrictOrderedRing K]

/-- What a change of the costs is charged at a layer. -/
def charge (lo hi lo' hi' outer : K) : K :=
  (if hi < lo then 0 else outer) * (lo' - lo) + (if hi < lo then outer else 0) * (hi' - hi)

omit [IsStrictOrderedRing K] in
theorem charge_eq_high {lo hi : K} (high : hi < lo) (lo' hi' outer : K) :
    charge lo hi lo' hi' outer = outer * (hi' - min lo hi) := by
  rw [charge, if_pos high, if_pos high, zero_mul, zero_add, min_eq_right high.le]

omit [IsStrictOrderedRing K] in
theorem charge_eq_low {lo hi : K} (low : ¬hi < lo) (lo' hi' outer : K) :
    charge lo hi lo' hi' outer = outer * (lo' - min lo hi) := by
  rw [charge, if_neg low, if_neg low, zero_mul, add_zero, min_eq_left (not_lt.mp low)]

theorem gain_le_charge (lo hi lo' hi' : K) {outer : K} (nonneg : 0 ≤ outer) :
    outer * (min lo' hi' - min lo hi) ≤ charge lo hi lo' hi' outer := by
  by_cases high : hi < lo
  · rw [charge_eq_high high]
    exact mul_le_mul_of_nonneg_left (sub_le_sub_right (min_le_right lo' hi') _) nonneg
  · rw [charge_eq_low high]
    exact mul_le_mul_of_nonneg_left (sub_le_sub_right (min_le_left lo' hi') _) nonneg

omit [IsStrictOrderedRing K] in
theorem gain_eq_charge {lo hi lo' hi' : K} (same : hi < lo ↔ hi' < lo') (outer : K) :
    outer * (min lo' hi' - min lo hi) = charge lo hi lo' hi' outer := by
  by_cases high : hi < lo
  · rw [charge_eq_high high, min_eq_right (same.mp high).le]
  · rw [charge_eq_low high, min_eq_left (not_lt.mp (mt same.mpr high))]

variable [Scalar K] [ExactScalar K]

omit [IsStrictOrderedRing K] in
/-- What the bounds gain, chain by chain, they gain layer by layer. -/
theorem sum_mul_boundsBy_sub (c c' : Costs (Vector K n)) (chainOf : Vector (Fin chains) n)
    (outer : Vector K chains) :
    ∑ j, outer.get j * ((c'.boundsBy chainOf).get j - (c.boundsBy chainOf).get j) =
      ∑ l, outer.get (chainOf.get l) *
        (min (c'.lo.get l) (c'.highCost l) - min (c.lo.get l) (c.highCost l)) := by
  rw [← Finset.sum_fiberwise Finset.univ chainOf.get]
  apply Finset.sum_congr rfl
  intro j _
  simp only [boundsBy, get_sumBy, get_branchMinima, ExactScalar.min_eq]
  rw [← Finset.sum_sub_distrib, Finset.mul_sum]
  apply Finset.sum_congr rfl
  intro l member
  rw [(Finset.mem_filter.mp member).2]

omit [IsStrictOrderedRing K] in
theorem boundGradient_eq_charge (c : Costs (Vector K n)) (chainOf : Vector (Fin chains) n)
    (outer : Vector K chains) (l : Fin n) (lo' hi' : K) :
    (c.boundGradient chainOf outer).lo.get l * (lo' - c.lo.get l) +
        (c.boundGradient chainOf outer).hi.get l * (hi' - c.highCost l) =
      charge (c.lo.get l) (c.highCost l) lo' hi' (outer.get (chainOf.get l)) := by
  simp only [boundGradient, get_ofFn, takesHigh, ExactScalar.lt_iff, zero_add, charge]

/-- With weights that are not negative, the bounds gain at most what the layers charge. -/
theorem sum_mul_boundsBy_sub_le (c c' : Costs (Vector K n)) (chainOf : Vector (Fin chains) n)
    {outer : Vector K chains} (nonneg : ∀ j, 0 ≤ outer.get j) :
    ∑ j, outer.get j * ((c'.boundsBy chainOf).get j - (c.boundsBy chainOf).get j) ≤
      ∑ l, ((c.boundGradient chainOf outer).lo.get l * (c'.lo.get l - c.lo.get l) +
        (c.boundGradient chainOf outer).hi.get l * (c'.highCost l - c.highCost l)) := by
  rw [sum_mul_boundsBy_sub]
  apply Finset.sum_le_sum
  intro l _
  rw [boundGradient_eq_charge]
  exact gain_le_charge _ _ _ _ (nonneg _)

omit [IsStrictOrderedRing K] in
/-- Where every layer keeps its branch, they gain exactly that. -/
theorem sum_mul_boundsBy_sub_eq {c c' : Costs (Vector K n)} (chainOf : Vector (Fin chains) n)
    (outer : Vector K chains)
    (same : ∀ l, c.highCost l < c.lo.get l ↔ c'.highCost l < c'.lo.get l) :
    ∑ j, outer.get j * ((c'.boundsBy chainOf).get j - (c.boundsBy chainOf).get j) =
      ∑ l, ((c.boundGradient chainOf outer).lo.get l * (c'.lo.get l - c.lo.get l) +
        (c.boundGradient chainOf outer).hi.get l * (c'.highCost l - c.highCost l)) := by
  rw [sum_mul_boundsBy_sub]
  apply Finset.sum_congr rfl
  intro l _
  rw [boundGradient_eq_charge]
  exact gain_eq_charge (same l) _

end Costs

end DualAscent
