import DualAscent.Proofs.Ascent.Chain
import Mathlib.Order.Bounds.Defs

/-!
# Which step ends a run

A slope that is not positive lets a run make all its steps.  With a positive slope the first step
only sets the scale, and the run ends after the first later one that improves the bound by no more
than the slope allows, or at its limit.  The costs that a run stands at on its way are those that
plain steps pass through.
-/

namespace DualAscent.Ascent

variable {α : Type} {slots n : Nat} [Scalar α] [Zero α] [Add α] [Sub α] [Mul α] [Neg α]
  {a : Ascent α slots n} {c : Costs (Vector α n)} {p : Progress α n} {rule : StopRule α}
  {slope : α} {cap limit : Nat}

/-- The `k`-th step improves the bound by at most a share of what the first step did. -/
def Slackens (a : Ascent α slots n) (c : Costs (Vector α n)) (slope : α) (k : Nat) : Prop :=
  Scalar.le (a.improvement c (k - 1)) (slope * Scalar.abs (a.improvement c 0)) = true

/-- How many steps a run from these costs makes. -/
structure EndsAfter (a : Ascent α slots n) (c : Costs (Vector α n)) (slope : α)
    (cap steps : Nat) : Prop where
  /-- With a slope that is not positive, all that it may make. -/
  flat : Scalar.lt 0 slope = false → steps = cap
  /-- With a positive slope, as many as it takes until a step after the first one slackens. -/
  steep : Scalar.lt 0 slope = true →
    IsLeast {k | 2 ≤ k ∧ k ≤ cap ∧ a.Slackens c slope k} steps ∨
      steps = cap ∧ ∀ k, 2 ≤ k → k ≤ cap → ¬a.Slackens c slope k

theorem EndsAfter.le_cap {steps : Nat} (ends : a.EndsAfter c slope cap steps) : steps ≤ cap := by
  cases sign : Scalar.lt 0 slope with
  | false => exact (ends.flat sign).le
  | true =>
      rcases ends.steep sign with least | ⟨all, -⟩
      · exact least.1.2.1
      · exact all.le

theorem EndsAfter.unique {steps steps' : Nat} (ends : a.EndsAfter c slope cap steps)
    (ends' : a.EndsAfter c slope cap steps') : steps = steps' := by
  cases sign : Scalar.lt 0 slope with
  | false => rw [ends.flat sign, ends'.flat sign]
  | true =>
      rcases ends.steep sign, ends'.steep sign with ⟨least | ⟨all, never⟩, least' | ⟨all', never'⟩⟩
      · exact least.unique least'
      · obtain ⟨later, within, slack⟩ := least.1
        exact absurd slack (never' steps later within)
      · obtain ⟨later, within, slack⟩ := least'.1
        exact absurd slack (never steps' later within)
      · rw [all, all']

/-- What settles a run is a positive slope and a step after the first one that slackens. -/
theorem settles_reference_iff {k : Nat} :
    rule.settles (a.reference c k) (a.improvement c k) = true ↔
      Scalar.lt 0 rule.slope = true ∧ 2 ≤ k + 1 ∧ a.Slackens c rule.slope (k + 1) := by
  rw [reference]
  split
  · next first =>
    refine ⟨fun settled => absurd settled Bool.false_ne_true, ?_⟩
    rintro ⟨-, later, -⟩
    omega
  · next later =>
    rw [StopRule.settles, Bool.and_eq_true, Slackens, Nat.add_sub_cancel]
    exact and_congr_right fun _ => (and_iff_right (by omega)).symm

/-- A run that falls short of its limit was settled by its last step. -/
theorem Follows.exists_settles (follows : a.Follows c p)
    (short : (a.run rule limit p).1.steps < p.steps + limit) :
    ∃ k, (a.run rule limit p).1.steps = k + 1 ∧
      rule.settles (a.reference c k) (a.improvement c k) = true := by
  induction limit generalizing p with
  | zero => exact absurd short (Nat.lt_irrefl _)
  | succ limit ih =>
      rw [run_succ] at short ⊢
      by_cases settled : rule.settles p.first (a.advance rule.window p).2 = true
      · rw [if_pos settled]
        rw [follows.first, follows.improvement_eq] at settled
        exact ⟨p.steps, rfl, settled⟩
      · rw [if_neg settled] at short ⊢
        refine ih (follows.advance rule.window) ?_
        rw [advance_steps, Nat.add_right_comm]
        exact short

/-- A run ends after the step that the slope and the limit determine. -/
theorem endsAfter_run (a : Ascent α slots n) (c : Costs (Vector α n)) (rule : StopRule α)
    (cap : Nat) : a.EndsAfter c rule.slope cap (a.run rule cap (Progress.start c)).1.steps := by
  have follows := a.follows_start c
  obtain ⟨steps, within, counted, -⟩ := a.run_eq_after rule cap (Progress.start c)
  have counted : (a.run rule cap (Progress.start c)).1.steps = steps :=
    counted.trans (Nat.zero_add steps)
  refine ⟨fun flat => ?_, fun positive => ?_⟩
  · exact (a.run_of_flat flat cap (Progress.start c)).1.trans (Nat.zero_add cap)
  rw [counted]
  -- Only the last step can slacken, since any other one would have ended the run.
  have last : ∀ k, 2 ≤ k → k ≤ cap → a.Slackens c rule.slope k → steps ≤ k := by
    intro k later _ slack
    by_contra beyond
    have ends := follows.settles_eq_false rule cap (k := k - 1) (Nat.zero_le _) (by omega)
    rw [← Bool.not_eq_true, settles_reference_iff, Nat.sub_add_cancel (by omega)] at ends
    exact ends ⟨positive, later, slack⟩
  by_cases slack : 2 ≤ steps ∧ a.Slackens c rule.slope steps
  · exact .inl ⟨⟨slack.1, within, slack.2⟩,
      fun k ⟨later, inside, slack⟩ => last k later inside slack⟩
  · have full : steps = cap := by
      by_contra differs
      have short : (a.run rule cap (Progress.start c)).1.steps <
          (Progress.start c).steps + cap := by
        show _ < 0 + cap
        omega
      obtain ⟨k, ended, settled⟩ := follows.exists_settles short
      obtain ⟨-, later, slack'⟩ := settles_reference_iff.mp settled
      rw [← ended, counted] at later slack'
      exact slack ⟨later, slack'⟩
    refine .inr ⟨full, fun k later inside slack' => slack ?_⟩
    obtain rfl : k = steps := le_antisymm (inside.trans_eq full.symm) (last k later inside slack')
    exact ⟨later, slack'⟩

/-- The costs that a run stands at before each of its steps. -/
def stages (a : Ascent α slots n) (rule : StopRule α) :
    (limit : Nat) → Progress α n → List (Costs (Vector α n))
  | 0, _ => []
  | limit + 1, p =>
    p.current ::
      if rule.settles p.first (a.advance rule.window p).2 then []
      else a.stages rule limit (a.advance rule.window p).1

/-- They are the costs that as many plain steps pass through. -/
theorem stages_eq_trace (a : Ascent α slots n) (rule : StopRule α) {limit k : Nat}
    (counted : (a.run rule limit p).1.steps = p.steps + k) :
    a.stages rule limit p = a.trace k p.current := by
  induction limit generalizing p k with
  | zero =>
      obtain rfl : k = 0 := Nat.add_left_cancel counted.symm
      rfl
  | succ limit ih =>
      rw [run_succ] at counted
      rw [stages]
      by_cases settled : rule.settles p.first (a.advance rule.window p).2 = true
      · rw [if_pos settled] at counted ⊢
        obtain rfl : k = 1 := Nat.add_left_cancel counted.symm
        rfl
      · rw [if_neg settled] at counted ⊢
        obtain ⟨k', -, steps, -⟩ := a.run_eq_after rule limit (a.advance rule.window p).1
        rw [advance_steps] at steps
        obtain rfl : k = k' + 1 := by omega
        rw [ih (k := k') steps, advance_current, trace]

end DualAscent.Ascent
