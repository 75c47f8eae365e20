import DualAscent.Proofs.Ascent.Chain

/-!
# A factor for all layers or one for each

Steps and sweeps read nothing of the damping but the factor of each layer.  Whether one value is
shared or every layer has its own therefore makes no difference to them, except for the gradient of
the damping: a shared value gains at once what the layers gain together.
-/

namespace DualAscent

variable {α : Type} {slots n : Nat}

namespace Damping

/-- The damping with a factor of its own for each of so many layers. -/
def spread (length : Nat) : Damping α (Array α) → Damping α (Array α)
  | shared value => perLayer (Array.replicate length value)
  | perLayer factors => perLayer factors

/-- What the layers together contribute to the gradient of the damping. -/
def total [AddCommMonoid α] : Damping α (Vector α n) → α
  | shared value => value
  | perLayer values => ∑ l, values.get l

theorem total_accumulate [AddCommMonoid α] (damping : Damping α (Vector α n))
    (amounts : Vector α n) :
    (damping.accumulate amounts).total = damping.total + ∑ l, amounts.get l := by
  cases damping with
  | shared value => exact foldl_add_eq_sum amounts value
  | perLayer values =>
      rw [accumulate, total, total, ← Finset.sum_add_distrib]
      exact Finset.sum_congr rfl fun l _ => get_zipWith_add values amounts l

end Damping

namespace Ascent

/-- The ascents differ at most in how the factors of their layers are given. -/
structure SameFactors (a a' : Ascent α slots n) : Prop where
  slotOf : a.slotOf = a'.slotOf
  weights : a.weights = a'.weights
  factor : ∀ l, a.damping.factor l = a'.damping.factor l

variable {a a' : Ascent α slots n}

section Steps

variable [Zero α] [Add α] [Sub α] [Mul α]

theorem SameFactors.step (same : a.SameFactors a') (c : Costs (Vector α n)) :
    a.step c = a'.step c := by
  simp only [Ascent.step, excess, same.slotOf, same.weights, same.factor]

theorem SameFactors.after (same : a.SameFactors a') (k : Nat) (c : Costs (Vector α n)) :
    a.after k c = a'.after k c := by
  induction k generalizing c with
  | zero => rfl
  | succ k ih => rw [Ascent.after, Ascent.after, same.step, ih]

theorem SameFactors.trace (same : a.SameFactors a') (k : Nat) (c : Costs (Vector α n)) :
    a.trace k c = a'.trace k c := by
  induction k generalizing c with
  | zero => rfl
  | succ k ih => rw [Ascent.trace, Ascent.trace, same.step, ih]

/-- Runs stop at the same step, in the same state. -/
theorem SameFactors.run [Scalar α] [Neg α] (same : a.SameFactors a') (rule : StopRule α)
    (limit : Nat) (p : Progress α n) : a.run rule limit p = a'.run rule limit p := by
  have advance (p : Progress α n) : a.advance rule.window p = a'.advance rule.window p := by
    rw [Ascent.advance, Ascent.advance, same.step]
  induction limit generalizing p with
  | zero => rfl
  | succ limit ih => rw [run_succ, run_succ, advance, ih]

end Steps

section Sweeps

variable [Zero α] [Add α] [Sub α] [Mul α] [Neg α]

theorem SameFactors.stepBackward (same : a.SameFactors a') (c : Costs (Vector α n))
    {g g' : Inputs α (Vector α n)} (costs : g.costs = g'.costs) (weights : g.weights = g'.weights) :
    (a.stepBackward c g).costs = (a'.stepBackward c g').costs ∧
      (a.stepBackward c g).weights = (a'.stepBackward c g').weights := by
  simp only [Ascent.stepBackward, same.slotOf, same.weights, same.factor, costs, weights, and_self]

/-- What becomes of costs and weights is the same. -/
theorem SameFactors.sweep (same : a.SameFactors a') (states : List (Costs (Vector α n)))
    {g g' : Inputs α (Vector α n)} (costs : g.costs = g'.costs) (weights : g.weights = g'.weights) :
    (a.sweep states g).costs = (a'.sweep states g').costs ∧
      (a.sweep states g).weights = (a'.sweep states g').weights := by
  induction states with
  | nil => exact ⟨costs, weights⟩
  | cons c states ih => exact same.stepBackward c ih.1 ih.2

end Sweeps

section Exact

variable [CommRing α]

theorem SameFactors.total_stepBackward (same : a.SameFactors a') (c : Costs (Vector α n))
    {g g' : Inputs α (Vector α n)} (costs : g.costs = g'.costs) :
    ∃ amount, (a.stepBackward c g).damping.total = g.damping.total + amount ∧
      (a'.stepBackward c g').damping.total = g'.damping.total + amount := by
  refine ⟨_, Damping.total_accumulate _ _, ?_⟩
  rw [Ascent.stepBackward, Damping.total_accumulate]
  simp only [excess, same.slotOf, same.weights, costs]

/-- In exact arithmetic both gradients of the damping gain the same. -/
theorem SameFactors.total_sweep (same : a.SameFactors a') (states : List (Costs (Vector α n)))
    {g g' : Inputs α (Vector α n)} (costs : g.costs = g'.costs) (weights : g.weights = g'.weights) :
    ∃ amount, (a.sweep states g).damping.total = g.damping.total + amount ∧
      (a'.sweep states g').damping.total = g'.damping.total + amount := by
  induction states with
  | nil => exact ⟨0, (add_zero _).symm, (add_zero _).symm⟩
  | cons c states ih =>
      obtain ⟨amount, first, second⟩ := ih
      obtain ⟨more, first', second'⟩ :=
        same.total_stepBackward c (same.sweep states costs weights).1
      refine ⟨amount + more, first'.trans ?_, second'.trans ?_⟩
      · rw [first, add_assoc]
      · rw [second, add_assoc]

end Exact

end Ascent

end DualAscent
