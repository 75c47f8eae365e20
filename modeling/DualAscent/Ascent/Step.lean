import DualAscent.Ascent.Margins

/-!
Dual ascent by message passing. A step takes a damped share of every layer's min-marginal
difference and hands the layer its weighted share of what all layers of the same slot gave. Main
statements: a step changes only the deferred min-marginals, and runs compose.
-/

namespace DualAscent

/-- What steers a dual ascent over `n` layers. -/
structure Ascent (α : Type) (slots n : Nat) where
  /-- The slot of every layer. -/
  slotOf : Vector (Fin slots) n
  /-- Share of the slot's sum that goes back to each layer. -/
  weights : Vector α n
  /-- Damping of the update of each layer. -/
  damping : Damping α (Vector α n)

namespace Ascent

variable {α : Type} {slots n : Nat}

section Step

variable [Zero α] [Add α] [Sub α] [Mul α]

/-- For every slot the sum of its layers' min-marginal differences. -/
def slotSums (a : Ascent α slots n) (c : Costs (Vector α n)) : Vector α slots :=
  sumBy a.slotOf c.margins

/-- What a layer's min-marginal difference exceeds its share of the slot's sum by. -/
def excess (a : Ascent α slots n) (margins : Vector α n) (sums : Vector α slots) (l : Fin n) :
    α :=
  margins.get l - a.weights.get l * sums.get (a.slotOf.get l)

/-- One dual iteration. -/
def step (a : Ascent α slots n) (c : Costs (Vector α n)) : Costs (Vector α n) :=
  let margins := c.margins
  let sums := sumBy a.slotOf margins
  { c with
    deferred := Vector.ofFn fun l =>
      c.deferred.get l - a.damping.factor l * a.excess margins sums l }

@[simp]
theorem step_lo (a : Ascent α slots n) (c : Costs (Vector α n)) : (a.step c).lo = c.lo := rfl

@[simp]
theorem step_hi (a : Ascent α slots n) (c : Costs (Vector α n)) : (a.step c).hi = c.hi := rfl

theorem get_step_deferred (a : Ascent α slots n) (c : Costs (Vector α n)) (l : Fin n) :
    (a.step c).deferred.get l =
      c.deferred.get l - a.damping.factor l * a.excess c.margins (a.slotSums c) l :=
  Vector.getElem_ofFn l.isLt

/-- The costs after some steps. -/
def after (a : Ascent α slots n) : Nat → Costs (Vector α n) → Costs (Vector α n)
  | 0, c => c
  | k + 1, c => a.after k (a.step c)

/-- The costs before each of some steps, in order. -/
def trace (a : Ascent α slots n) : Nat → Costs (Vector α n) → List (Costs (Vector α n))
  | 0, _ => []
  | k + 1, c => c :: a.trace k (a.step c)

theorem after_add (a : Ascent α slots n) (j k : Nat) (c : Costs (Vector α n)) :
    a.after (j + k) c = a.after k (a.after j c) := by
  induction j generalizing c with
  | zero => simp [after]
  | succ j ih => rw [Nat.add_right_comm, after, ih, after]

theorem trace_add (a : Ascent α slots n) (j k : Nat) (c : Costs (Vector α n)) :
    a.trace (j + k) c = a.trace j c ++ a.trace k (a.after j c) := by
  induction j generalizing c with
  | zero => simp [trace, after]
  | succ j ih => rw [Nat.add_right_comm, trace, ih, trace, after, List.cons_append]

@[simp]
theorem length_trace (a : Ascent α slots n) (k : Nat) (c : Costs (Vector α n)) :
    (a.trace k c).length = k := by
  induction k generalizing c with
  | zero => rfl
  | succ k ih => simp [trace, ih]

end Step

/-- Weights that split every slot evenly over its layers. -/
def evenWeights [Scalar α] (slotOf : Vector (Fin slots) n) : Vector α n :=
  let counts := countBy slotOf fun _ => true
  Vector.ofFn fun l => Scalar.div Scalar.one (Scalar.ofNat (counts.get (slotOf.get l)))

end Ascent

end DualAscent
