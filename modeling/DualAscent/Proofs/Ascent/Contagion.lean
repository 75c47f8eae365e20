import DualAscent.Proofs.Ascent.Sweep
import DualAscent.Proofs.Contagion

/-!
# Reverse sweeps hide nothing

A reverse step adds to or subtracts from every gradient of the costs, in place.  If the gradients
it arrives at are finite, so are those it started from, and with them all that came in between.
-/

namespace DualAscent.Ascent

variable {α : Type} {slots n : Nat} [Scalar α] [Zero α] [Add α] [Sub α] [Mul α] [Neg α]
  [Contagious α]

theorem finite_of_stepBackward (a : Ascent α slots n) (c : Costs (Vector α n))
    {g : Inputs α (Vector α n)}
    (finite : ((a.stepBackward c g).costs.map Vector.toArray).Finite) :
    (g.costs.map Vector.toArray).Finite := by
  rw [Costs.finite_toArray_iff] at finite ⊢
  intro l
  obtain ⟨lo, hi, deferred⟩ := finite l
  simp only [stepBackward, get_ofFn] at lo hi deferred
  exact ⟨Contagious.of_sub _ _ lo, (Contagious.of_add _ _ hi).1,
    (Contagious.of_add _ _ deferred).1⟩

theorem finite_of_sweep (a : Ascent α slots n) (states : List (Costs (Vector α n)))
    {g : Inputs α (Vector α n)} (finite : ((a.sweep states g).costs.map Vector.toArray).Finite) :
    (g.costs.map Vector.toArray).Finite := by
  induction states with
  | nil => exact finite
  | cons c states ih => exact ih (a.finite_of_stepBackward c finite)

end DualAscent.Ascent
