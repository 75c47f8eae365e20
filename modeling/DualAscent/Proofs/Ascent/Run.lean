import DualAscent.Ascent.Run

/-!
# Where a run ends

Whatever stops it, a run makes some number of steps within its limit, and it ends in the costs
that as many plain steps reach.  Of the improvements on the way none but the last one can have
ended it.
-/

namespace DualAscent.Ascent

variable {α : Type} {slots n : Nat} [Scalar α] [Zero α] [Add α] [Sub α] [Mul α]

@[simp]
theorem advance_steps (a : Ascent α slots n) (window : Nat) (p : Progress α n) :
    (a.advance window p).1.steps = p.steps + 1 := rfl

@[simp]
theorem advance_current (a : Ascent α slots n) (window : Nat) (p : Progress α n) :
    (a.advance window p).1.current = a.step p.current := rfl

theorem run_succ [Neg α] (a : Ascent α slots n) (rule : StopRule α) (limit : Nat)
    (p : Progress α n) :
    a.run rule (limit + 1) p =
      if rule.settles p.first (a.advance rule.window p).2 then
        ((a.advance rule.window p).1, some (a.advance rule.window p).2)
      else a.run rule limit (a.advance rule.window p).1 := rfl

/-- What every step keeps, a run keeps. -/
theorem run_induction [Neg α] {a : Ascent α slots n} {rule : StopRule α}
    {kept : Progress α n → Prop}
    (next : ∀ p, kept p → kept (a.advance rule.window p).1) (limit : Nat) {p : Progress α n}
    (start : kept p) : kept (a.run rule limit p).1 := by
  induction limit generalizing p with
  | zero => exact start
  | succ limit ih =>
      rw [run_succ]
      split
      · exact next p start
      · exact ih (next p start)

/-- A run passes through plain steps, as many as it counts. -/
theorem run_eq_after [Neg α] (a : Ascent α slots n) (rule : StopRule α) (limit : Nat)
    (p : Progress α n) :
    ∃ k ≤ limit, (a.run rule limit p).1.steps = p.steps + k ∧
      (a.run rule limit p).1.current = a.after k p.current := by
  induction limit generalizing p with
  | zero => exact ⟨0, Nat.le_refl 0, rfl, rfl⟩
  | succ limit ih =>
      rw [run_succ]
      by_cases settled : rule.settles p.first (a.advance rule.window p).2 = true
      · rw [if_pos settled]
        exact ⟨1, Nat.le_add_left 1 limit, rfl, rfl⟩
      · rw [if_neg settled]
        obtain ⟨k, within, steps, current⟩ := ih (a.advance rule.window p).1
        refine ⟨k + 1, Nat.succ_le_succ within, ?_, ?_⟩
        · rw [steps, advance_steps, Nat.add_assoc, Nat.add_comm 1 k]
        · rw [current, advance_current, after]

omit [Scalar α] in
theorem after_succ (a : Ascent α slots n) (k : Nat) (c : Costs (Vector α n)) :
    a.after (k + 1) c = a.step (a.after k c) :=
  a.after_add k 1 c

omit [Scalar α] in
/-- Steps leave the branch costs alone. -/
theorem toBranches_after (a : Ascent α slots n) (k : Nat) (c : Costs (Vector α n)) :
    (a.after k c).toBranches = c.toBranches := by
  induction k generalizing c with
  | zero => rfl
  | succ k ih => exact ih (a.step c)

omit [Scalar α] in
/-- The costs along a run are those after so many steps. -/
theorem trace_after (a : Ascent α slots n) (j k : Nat) (c : Costs (Vector α n)) :
    a.trace k (a.after j c) = (List.range' j k).map fun i => a.after i c := by
  induction k generalizing j with
  | zero => rfl
  | succ k ih => rw [trace, ← after_succ, ih, List.range'_succ, List.map_cons]

/-- How much the step after `k` others improves the total lower bound. -/
def improvement (a : Ascent α slots n) (c : Costs (Vector α n)) (k : Nat) : α :=
  (a.after (k + 1) c).bound - (a.after k c).bound

/-- What an improvement after `k` steps is compared with: nothing at first, and from then on the
improvement by the first step. -/
def reference (a : Ascent α slots n) (c : Costs (Vector α n)) (k : Nat) : Option α :=
  if k = 0 then none else some (a.improvement c 0)

/-- A run from the costs `c` on is in this state after as many steps. -/
structure Follows (a : Ascent α slots n) (c : Costs (Vector α n)) (p : Progress α n) : Prop where
  current : p.current = a.after p.steps c
  bound : p.bound = p.current.bound
  first : p.first = a.reference c p.steps

theorem follows_start (a : Ascent α slots n) (c : Costs (Vector α n)) :
    a.Follows c (Progress.start c) :=
  ⟨rfl, rfl, rfl⟩

variable {a : Ascent α slots n} {c : Costs (Vector α n)} {p : Progress α n}

theorem Follows.improvement_eq (follows : a.Follows c p) (window : Nat) :
    (a.advance window p).2 = a.improvement c p.steps := by
  rw [improvement, after_succ, ← follows.current, ← follows.bound]
  rfl

theorem Follows.advance (follows : a.Follows c p) (window : Nat) :
    a.Follows c (a.advance window p).1 := by
  refine ⟨?_, rfl, ?_⟩
  · rw [advance_current, advance_steps, after_succ, follows.current]
  · rw [advance_steps, reference, if_neg (Nat.succ_ne_zero _)]
    show some (p.first.getD (a.advance window p).2) = _
    rw [follows.improvement_eq, follows.first, reference]
    split
    · next none_yet => rw [none_yet, Option.getD_none]
    · rw [Option.getD_some]

/-- No step but the last one settles a run. -/
theorem Follows.settles_eq_false [Neg α] (follows : a.Follows c p) (rule : StopRule α)
    (limit : Nat) {k : Nat} (later : p.steps ≤ k) (before : k + 1 < (a.run rule limit p).1.steps) :
    rule.settles (a.reference c k) (a.improvement c k) = false := by
  induction limit generalizing p with
  | zero =>
      have ended : (a.run rule 0 p).1.steps = p.steps := rfl
      omega
  | succ limit ih =>
      rw [run_succ] at before
      by_cases settled : rule.settles p.first (a.advance rule.window p).2 = true
      · rw [if_pos settled, advance_steps] at before
        omega
      · rw [if_neg settled] at before
        rcases Nat.eq_or_lt_of_le later with rfl | beyond
        · rw [← follows.first, ← follows.improvement_eq rule.window]
          exact eq_false_of_ne_true settled
        · exact ih (follows.advance rule.window) beyond before

end DualAscent.Ascent
