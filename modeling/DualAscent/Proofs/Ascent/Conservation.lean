import DualAscent.Proofs.Ascent.Rounding

/-!
# Which dampings keep the sums of the slots

A step that shares every slot out keeps the sum of a slot's margins if it damps the slot's layers
alike.  No other damping does so at all costs: a margin that a single layer has is taken from it
with its own factor, and handed back with the weighted mean of the factors of its slot.
-/

namespace DualAscent

variable {R : Type} [CommRing R] {slots n : Nat}

namespace Costs

/-- The high branch of one layer costs one, and everything else costs nothing. -/
def single (l : Fin n) : Costs (Vector R n) where
  lo := .replicate n 0
  hi := .ofFn fun l' => if l' = l then 1 else 0
  deferred := .replicate n 0

theorem get_margins_single (l l' : Fin n) :
    (single l : Costs (Vector R n)).margins.get l' = if l' = l then 1 else 0 := by
  rw [get_margins, highCost, single, get_ofFn, get_replicate, add_zero, sub_zero]

end Costs

namespace Ascent

variable {a : Ascent R slots n}

/-- The mean damping of a slot's layers, by their weights. -/
def meanFactor (a : Ascent R slots n) (slot : Fin slots) : R :=
  ∑ l with a.slotOf.get l = slot, a.damping.factor l * a.weights.get l

private theorem sum_slot_single (a : Ascent R slots n) (l : Fin n) (value : Fin n → R) :
    (∑ l' with a.slotOf.get l' = a.slotOf.get l, if l' = l then value l' else 0) = value l := by
  have member : l ∈ Finset.univ.filter fun l' => a.slotOf.get l' = a.slotOf.get l :=
    Finset.mem_filter.mpr ⟨Finset.mem_univ l, rfl⟩
  rw [Finset.sum_ite_eq', if_pos member]

theorem get_slotSums_single (a : Ascent R slots n) (l : Fin n) :
    (a.slotSums (.single l)).get (a.slotOf.get l) = 1 := by
  simp only [get_slotSums, Costs.get_margins_single]
  exact a.sum_slot_single l fun _ => 1

/-- A step from a single margin loses what the layer's factor exceeds the mean of its slot by. -/
theorem get_slotSums_step_single (a : Ascent R slots n) (l : Fin n) :
    (a.slotSums (a.step (.single l))).get (a.slotOf.get l) =
      1 - (a.damping.factor l - a.meanFactor (a.slotOf.get l)) := by
  have update : ∀ l' ∈ Finset.univ.filter fun l' => a.slotOf.get l' = a.slotOf.get l,
      a.damping.factor l' * a.excess (Costs.single l).margins (a.slotSums (.single l)) l' =
        (if l' = l then a.damping.factor l' else 0) - a.damping.factor l' * a.weights.get l' := by
    intro l' member
    rw [excess, (Finset.mem_filter.mp member).2, get_slotSums_single, Costs.get_margins_single,
      mul_one, mul_sub, mul_ite, mul_one, mul_zero]
  rw [get_slotSums_step_eq_sub, get_slotSums_single, Finset.sum_congr rfl update,
    Finset.sum_sub_distrib, sum_slot_single, meanFactor]

/-- If a step keeps the sums at all costs, every layer is damped with the mean of its slot. -/
theorem dampsSlots_of_kept
    (kept : ∀ c slot, (a.slotSums (a.step c)).get slot = (a.slotSums c).get slot) :
    a.DampsSlots := by
  have mean : ∀ l, a.damping.factor l = a.meanFactor (a.slotOf.get l) := by
    intro l
    have single := kept (.single l) (a.slotOf.get l)
    rw [get_slotSums_step_single, get_slotSums_single, sub_eq_self] at single
    exact sub_eq_zero.mp single
  intro l l' same
  rw [mean l, mean l', same]

end Ascent

end DualAscent
