import DualAscent.Ascent.Step

/-!
Reverse sweeps: the gradient of a run with respect to everything it depends on. Instead of all
costs along the way, a checkpointed sweep keeps only those at the start of each block of steps
and recomputes the others block by block. Main statements: there are no more blocks than allowed,
and recomputing them one by one passes through the costs of the whole run.
-/

namespace DualAscent.Ascent

variable {α : Type} {slots n : Nat} [Zero α] [Add α] [Sub α] [Mul α]

/-- Reverse of a step taken at the costs `c`: turns the gradient after the step into the gradient
before it, adding up what weights and damping contribute. -/
def stepBackward [Neg α] (a : Ascent α slots n) (c : Costs (Vector α n))
    (g : Inputs α (Vector α n)) : Inputs α (Vector α n) :=
  let margins := c.margins
  let sums := sumBy a.slotOf margins
  let outer := g.costs.deferred
  let returned := sumBy a.slotOf
    (Vector.ofFn fun l => a.damping.factor l * a.weights.get l * outer.get l)
  let ofMargin := Vector.ofFn fun l =>
    (-a.damping.factor l) * outer.get l + returned.get (a.slotOf.get l)
  { costs :=
      { lo := Vector.ofFn fun l => g.costs.lo.get l - ofMargin.get l
        hi := Vector.ofFn fun l => g.costs.hi.get l + ofMargin.get l
        deferred := Vector.ofFn fun l => outer.get l + ofMargin.get l }
    weights := Vector.ofFn fun l =>
      g.weights.get l + a.damping.factor l * sums.get (a.slotOf.get l) * outer.get l
    damping := g.damping.accumulate
      (Vector.ofFn fun l => (-a.excess margins sums l) * outer.get l) }

/-- Sends a gradient back through steps, from the last to the first. -/
def sweep [Neg α] (a : Ascent α slots n) (states : List (Costs (Vector α n)))
    (g : Inputs α (Vector α n)) : Inputs α (Vector α n) :=
  states.foldr a.stepBackward g

/-- The steps of each block, if at most `caches` blocks are to cover `steps` steps: all blocks
are equally long but for a shorter last one. At least one block is allowed. -/
def blocks (steps caches : Nat) : List Nat :=
  let stride := (steps + (max caches 1 - 1)) / max caches 1
  List.replicate (steps / stride) stride ++ (if steps % stride = 0 then [] else [steps % stride])

theorem length_blocks_le (steps caches : Nat) : (blocks steps caches).length ≤ max caches 1 := by
  simp only [blocks, List.length_append, List.length_replicate]
  generalize rounded : (steps + (max caches 1 - 1)) / max caches 1 = stride
  have allowed : 0 < max caches 1 := Nat.lt_of_lt_of_le Nat.one_pos (Nat.le_max_right caches 1)
  generalize max caches 1 = most at rounded allowed
  have enough : steps ≤ most * stride := by
    have := Nat.lt_mul_div_succ (steps + (most - 1)) allowed
    rw [rounded, Nat.mul_add] at this
    omega
  have parts := Nat.div_add_mod' steps stride
  split
  · simp only [List.length_nil, Nat.add_zero]
    exact Nat.div_le_of_le_mul (Nat.mul_comm most stride ▸ enough)
  · next some_left =>
    have room : steps / stride * stride < most * stride := by omega
    exact Nat.lt_of_mul_lt_mul_right room

/-- The costs at the start of each block, with the block's length. -/
def checkpoints (a : Ascent α slots n) (c : Costs (Vector α n)) :
    List Nat → List (Costs (Vector α n) × Nat)
  | [] => []
  | k :: rest => (c, k) :: a.checkpoints (a.after k c) rest

/-- The costs along a run, recomputed block by block. -/
def retrace (a : Ascent α slots n) (c : Costs (Vector α n)) (lengths : List Nat) :
    List (Costs (Vector α n)) :=
  (a.checkpoints c lengths).flatMap fun (start, k) => a.trace k start

theorem retrace_cons (a : Ascent α slots n) (c : Costs (Vector α n)) (k : Nat)
    (rest : List Nat) :
    a.retrace c (k :: rest) = a.trace k c ++ a.retrace (a.after k c) rest :=
  List.flatMap_cons

theorem retrace_replicate_append (a : Ascent α slots n) (c : Costs (Vector α n))
    (count k : Nat) (rest : List Nat) :
    a.retrace c (List.replicate count k ++ rest) =
      a.trace (count * k) c ++ a.retrace (a.after (count * k) c) rest := by
  induction count generalizing c with
  | zero => simp [trace, after]
  | succ count ih =>
    rw [List.replicate_succ, List.cons_append, retrace_cons, ih, Nat.succ_mul, Nat.add_comm,
      trace_add, after_add, List.append_assoc]

/-- Block by block, all costs along the run are recomputed in order. -/
theorem retrace_blocks (a : Ascent α slots n) (c : Costs (Vector α n)) (steps caches : Nat) :
    a.retrace c (blocks steps caches) = a.trace steps c := by
  rw [blocks, retrace_replicate_append]
  generalize (steps + (max caches 1 - 1)) / max caches 1 = stride
  have parts := Nat.div_add_mod' steps stride
  split
  · next none_left =>
    rw [none_left, Nat.add_zero] at parts
    rw [parts]
    exact List.append_nil _
  · rw [retrace_cons, ← List.append_assoc, ← trace_add, parts]
    exact List.append_nil _

/-- Sends a gradient back through `steps` steps from the costs `c`, keeping at most `caches`
checkpoints and the costs inside one block at a time. -/
def checkpointedSweep [Neg α] (a : Ascent α slots n) (c : Costs (Vector α n))
    (steps caches : Nat) (g : Inputs α (Vector α n)) : Inputs α (Vector α n) :=
  (a.checkpoints c (blocks steps caches)).foldr
    (fun (start, k) gradient => a.sweep (a.trace k start) gradient) g

end DualAscent.Ascent
