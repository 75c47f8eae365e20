import DualAscent.Proofs.Ascent.Run
import DualAscent.Proofs.Ascent.Sweep
import DualAscent.Proofs.Entries
import DualAscent.Proofs.GroupedSum

/-!
# Runs in a row

A run whose rule never ends it makes all its steps, so that two of them in a row reach what one
over all steps does.  The reverse sweeps compose likewise: what a sweep makes of the costs does not
depend on the gradients of weights and damping that it starts from, and in exact arithmetic those
are summands of what it returns.
-/

namespace DualAscent

variable {α : Type} {slots n : Nat}

section Run

variable [Scalar α] [Zero α] [Neg α] [Mul α]

/-- A slope that is not positive ends no run. -/
theorem StopRule.settles_of_flat {rule : StopRule α} (flat : Scalar.lt 0 rule.slope = false)
    (first : Option α) (improvement : α) : rule.settles first improvement = false := by
  cases first with
  | none => rfl
  | some initial => rw [settles, flat, Bool.false_and]

/-- A run that its rule never ends makes all its steps. -/
theorem Ascent.run_of_flat [Add α] [Sub α] (a : Ascent α slots n) {rule : StopRule α}
    (flat : Scalar.lt 0 rule.slope = false) (limit : Nat) (p : Progress α n) :
    (a.run rule limit p).1.steps = p.steps + limit ∧
      (a.run rule limit p).1.current = a.after limit p.current := by
  induction limit generalizing p with
  | zero => exact ⟨rfl, rfl⟩
  | succ limit ih =>
      have goesOn : ¬rule.settles p.first (a.advance rule.window p).2 = true := by
        rw [StopRule.settles_of_flat flat]
        exact Bool.false_ne_true
      obtain ⟨steps, current⟩ := ih (a.advance rule.window p).1
      rw [run_succ, if_neg goesOn]
      refine ⟨?_, current⟩
      rw [steps, advance_steps, Nat.add_assoc, Nat.add_comm 1 limit]

end Run

namespace Ascent

variable [Zero α] [Add α] [Sub α] [Mul α] [Neg α]

theorem sweep_append (a : Ascent α slots n) (earlier later : List (Costs (Vector α n)))
    (g : Inputs α (Vector α n)) :
    a.sweep (earlier ++ later) g = a.sweep earlier (a.sweep later g) :=
  List.foldr_append

theorem costs_stepBackward (a : Ascent α slots n) (c : Costs (Vector α n))
    {g g' : Inputs α (Vector α n)} (same : g.costs = g'.costs) :
    (a.stepBackward c g).costs = (a.stepBackward c g').costs := by
  rw [stepBackward, stepBackward, same]

/-- What becomes of the costs does not depend on the gradients of weights and damping. -/
theorem costs_sweep (a : Ascent α slots n) (states : List (Costs (Vector α n)))
    {g g' : Inputs α (Vector α n)} (same : g.costs = g'.costs) :
    (a.sweep states g).costs = (a.sweep states g').costs := by
  induction states with
  | nil => exact same
  | cons c states ih => exact a.costs_stepBackward c ih

end Ascent

/-- The sum of two gradients of damping factors of the same kind. -/
def Damping.plus [Add α] : Damping α (Vector α n) → Damping α (Vector α n) →
    Damping α (Vector α n)
  | shared value, shared value' => .shared (value + value')
  | perLayer values, perLayer values' => .perLayer (values.zipWith (· + ·) values')
  | damping, _ => damping

/-- The gradient with the weight and damping gradients of another one added to its own. -/
def Inputs.gain [Add α] (g other : Inputs α (Vector α n)) : Inputs α (Vector α n) where
  costs := g.costs
  weights := g.weights.zipWith (· + ·) other.weights
  damping := g.damping.plus other.damping

@[simp]
theorem get_zipWith_add [Add α] (first second : Vector α n) (l : Fin n) :
    (first.zipWith (· + ·) second).get l = first.get l + second.get l :=
  Vector.getElem_zipWith l.isLt

section Exact

variable [CommRing α]

theorem foldl_add_right (values : Vector α n) (total amount : α) :
    values.foldl (· + ·) (total + amount) = values.foldl (· + ·) total + amount := by
  rw [foldl_add_eq_sum, foldl_add_eq_sum, add_right_comm]

theorem Damping.accumulate_plus (damping other : Damping α (Vector α n)) (amounts : Vector α n) :
    (damping.plus other).accumulate amounts = (damping.accumulate amounts).plus other := by
  cases damping with
  | shared value =>
      cases other with
      | shared value' => exact congrArg shared (foldl_add_right amounts value value')
      | perLayer values' => rfl
  | perLayer values =>
      cases other with
      | shared value' => rfl
      | perLayer values' =>
          refine congrArg perLayer (ext_get fun l => ?_)
          simp only [get_zipWith_add]
          rw [add_right_comm]

theorem Ascent.stepBackward_gain (a : Ascent α slots n) (c : Costs (Vector α n))
    (g other : Inputs α (Vector α n)) :
    a.stepBackward c (g.gain other) = (a.stepBackward c g).gain other := by
  refine congrArg₂ (Inputs.mk _) (ext_get fun l => ?_) (Damping.accumulate_plus _ _ _)
  simp only [Inputs.gain, stepBackward, get_zipWith_add, get_ofFn]
  rw [add_right_comm]

/-- Gradients of weights and damping that a sweep starts from are summands of what it returns. -/
theorem Ascent.sweep_gain (a : Ascent α slots n) (states : List (Costs (Vector α n)))
    (g other : Inputs α (Vector α n)) :
    a.sweep states (g.gain other) = (a.sweep states g).gain other := by
  induction states with
  | nil => rfl
  | cons c states ih =>
      rw [sweep, List.foldr_cons]
      exact (congrArg (a.stepBackward c) ih).trans (a.stepBackward_gain c _ other)

end Exact

end DualAscent
