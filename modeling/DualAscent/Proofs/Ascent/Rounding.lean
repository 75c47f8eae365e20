import DualAscent.Ascent.Rounding
import DualAscent.Proofs.Ascent.Energy
import DualAscent.Proofs.Entries

/-!
# Rounding keeps the side of every variable

The margins of a slot's layers add up to a sum that steps keep and that pushes only move away from
zero.  Layers that agree therefore take the branch on the side where this sum has been from the
start.
-/

namespace DualAscent

variable {primals slots n : Nat}

namespace Ascent

section Steps

variable {R : Type} [CommRing R] {a : Ascent R slots n}

theorem get_slotSums_step (damps : a.DampsSlots) (shares : a.SharesSlots) (c : Costs (Vector R n))
    (slot : Fin slots) : (a.slotSums (a.step c)).get slot = (a.slotSums c).get slot := by
  rw [get_slotSums_step_eq_sub, sum_update_eq_zero damps shares, sub_zero]

/-- Any number of steps keeps the sum of every slot. -/
theorem get_slotSums_after (damps : a.DampsSlots) (shares : a.SharesSlots) (k : Nat)
    (c : Costs (Vector R n)) (slot : Fin slots) :
    (a.slotSums (a.after k c)).get slot = (a.slotSums c).get slot := by
  induction k generalizing c with
  | zero => rfl
  | succ k ih => rw [after, ih, get_slotSums_step damps shares]

end Steps

section Votes

variable {α : Type} [Scalar α] [Add α] {a : Ascent α (primals + 1) n} {c : Costs (Vector α n)}
  {slot : Fin (primals + 1)}

theorem someHigh_votes_iff :
    (a.votes c).someHigh slot = true ↔ ∃ l, a.slotOf.get l = slot ∧ c.takesHigh l = true := by
  rw [Votes.someHigh, decide_eq_true_iff, votes, get_countBy, Finset.card_pos]
  constructor
  · rintro ⟨l, member⟩
    exact ⟨l, (Finset.mem_filter.mp member).2⟩
  · rintro ⟨l, both⟩
    exact ⟨l, Finset.mem_filter.mpr ⟨Finset.mem_univ l, both⟩⟩

/-- Layers of a slot that do not disagree all take the high branch, or none of them does. -/
theorem takesHigh_eq_someHigh (agree : (a.votes c).disagree slot = false) {l : Fin n}
    (here : a.slotOf.get l = slot) : c.takesHigh l = (a.votes c).someHigh slot := by
  by_cases some_high : (a.votes c).someHigh slot = true
  · have positive : decide (0 < (a.votes c).high.get slot) = true := some_high
    rw [Votes.disagree, positive, Bool.true_and, decide_eq_false_iff_not, Nat.not_lt, votes,
      get_countBy, get_countBy] at agree
    -- As many layers take the high branch as there are, so they are the same ones.
    have all_high := Finset.eq_of_subset_of_card_le (fun l' member =>
      Finset.mem_filter.mpr ⟨Finset.mem_univ l', (Finset.mem_filter.mp member).2.1, rfl⟩) agree
    have member : l ∈ Finset.univ.filter fun i => a.slotOf.get i = slot ∧ true = true :=
      Finset.mem_filter.mpr ⟨Finset.mem_univ l, here, rfl⟩
    rw [← all_high] at member
    rw [some_high]
    exact (Finset.mem_filter.mp member).2.2
  · rw [eq_false_of_ne_true some_high]
    exact eq_false_of_ne_true fun high => some_high (someHigh_votes_iff.mpr ⟨l, here, high⟩)

theorem agrees_iff {votes : Votes (primals + 1)} :
    agrees votes = true ↔ ∀ v : Fin primals, votes.disagree v.castSucc = false := by
  simp [agrees]

end Votes

section Pushes

variable {R : Type} [CommRing R] [Scalar R]

/-- What a push adds to the margin of every layer of a slot. -/
def shift (a : Ascent R (primals + 1) n) (votes : Votes (primals + 1)) (delta : R)
    (c : Costs (Vector R n)) (slot : Fin (primals + 1)) : R :=
  if slot ≠ Fin.last primals && votes.disagree slot then
    if Scalar.lt ((a.slotSums c).get slot) 0 then -delta else delta
  else 0

theorem shift_eq_zero {a : Ascent R (primals + 1) n} {votes : Votes (primals + 1)} {delta : R}
    {c : Costs (Vector R n)} {slot : Fin (primals + 1)} (agree : votes.disagree slot = false) :
    a.shift votes delta c slot = 0 := by
  rw [shift, agree, Bool.and_false, if_neg Bool.false_ne_true]

theorem get_margins_push (a : Ascent R (primals + 1) n) (votes : Votes (primals + 1)) (delta : R)
    (c : Costs (Vector R n)) (l : Fin n) :
    (a.push votes delta c).margins.get l =
      c.margins.get l + a.shift votes delta c (a.slotOf.get l) := by
  simp only [Costs.get_margins, Costs.highCost, push, get_ofFn, shift]
  by_cases disputed :
      (decide (a.slotOf.get l ≠ Fin.last primals) && votes.disagree (a.slotOf.get l)) = true
  · by_cases prefers_high : Scalar.lt ((a.slotSums c).get (a.slotOf.get l)) 0 = true
    · simp only [disputed, prefers_high, Bool.and_true, Bool.and_false, Bool.not_true,
        Bool.false_eq_true, if_true, if_false]
      ring
    · simp only [disputed, eq_false_of_ne_true prefers_high, Bool.and_true, Bool.and_false,
        Bool.not_false, Bool.false_eq_true, if_true, if_false]
      ring
  · simp only [eq_false_of_ne_true disputed, Bool.false_and, Bool.false_eq_true, if_false,
      add_zero]

/-- A push adds its amount once for every layer. -/
theorem get_slotSums_push (a : Ascent R (primals + 1) n) (votes : Votes (primals + 1)) (delta : R)
    (c : Costs (Vector R n)) (slot : Fin (primals + 1)) :
    (a.slotSums (a.push votes delta c)).get slot = (a.slotSums c).get slot +
      (Finset.univ.filter fun l => a.slotOf.get l = slot).card * a.shift votes delta c slot := by
  rw [get_slotSums, get_slotSums, ← nsmul_eq_mul, ← Finset.sum_const, ← Finset.sum_add_distrib]
  apply Finset.sum_congr rfl
  intro l member
  rw [get_margins_push, (Finset.mem_filter.mp member).2]

end Pushes

end Ascent

section Order

variable {K : Type} [Field K] [LinearOrder K] [IsStrictOrderedRing K] [Scalar K] [ExactScalar K]

theorem Costs.takesHigh_iff {c : Costs (Vector K n)} {l : Fin n} :
    c.takesHigh l = true ↔ c.margins.get l < 0 := by
  rw [takesHigh, ExactScalar.lt_iff, get_margins, sub_neg]

namespace Ascent

/-- Where the layers of a slot agree, they take the high branch exactly if the sum of their margins
is negative. -/
theorem someHigh_iff_of_agree {a : Ascent K (primals + 1) n} {c : Costs (Vector K n)}
    {slot : Fin (primals + 1)} (agree : (a.votes c).disagree slot = false) :
    (a.votes c).someHigh slot = true ↔ (a.slotSums c).get slot < 0 := by
  rw [get_slotSums]
  constructor
  · intro some_high
    obtain ⟨l, here, -⟩ := someHigh_votes_iff.mp some_high
    refine Finset.sum_neg (fun l' member => ?_) ⟨l, Finset.mem_filter.mpr ⟨Finset.mem_univ l, here⟩⟩
    rw [← Costs.takesHigh_iff, takesHigh_eq_someHigh agree (Finset.mem_filter.mp member).2,
      some_high]
  · intro negative
    obtain ⟨l, member, below⟩ := Finset.exists_lt_of_sum_lt (negative.trans_eq
      (Finset.sum_const_zero (s := Finset.univ.filter fun l => a.slotOf.get l = slot)).symm)
    rw [← takesHigh_eq_someHigh agree (Finset.mem_filter.mp member).2]
    exact Costs.takesHigh_iff.mpr below

/-- No push takes the sum of a slot to the other side of zero. -/
theorem slotSums_push_neg_iff (a : Ascent K (primals + 1) n) (votes : Votes (primals + 1))
    {delta : K} (nonneg : 0 ≤ delta) (c : Costs (Vector K n)) (slot : Fin (primals + 1)) :
    (a.slotSums (a.push votes delta c)).get slot < 0 ↔ (a.slotSums c).get slot < 0 := by
  rw [get_slotSums_push, shift]
  simp only [ExactScalar.lt_iff]
  have amount : 0 ≤ ((Finset.univ.filter fun l => a.slotOf.get l = slot).card : K) * delta :=
    mul_nonneg (Nat.cast_nonneg _) nonneg
  split
  · split
    · next negative =>
      rw [mul_neg]
      constructor
      · intro _
        exact negative
      · intro _
        linarith
    · next positive =>
      have above : 0 ≤ (a.slotSums c).get slot := not_lt.mp positive
      constructor
      · intro below
        linarith
      · intro below
        exact absurd below positive
  · rw [mul_zero, add_zero]

variable {a : Ascent K (primals + 1) n}

/-- Every round keeps the side on which the sum of a slot is. -/
theorem slotSums_round_neg_iff (damps : a.DampsSlots) (shares : a.SharesSlots)
    (votes : Votes (primals + 1)) {delta : K} (nonneg : 0 ≤ delta) (k : Nat)
    (c : Costs (Vector K n)) (slot : Fin (primals + 1)) :
    (a.slotSums (a.after k (a.push votes delta c))).get slot < 0 ↔
      (a.slotSums c).get slot < 0 := by
  rw [get_slotSums_after damps shares, slotSums_push_neg_iff a votes nonneg]

/-- If rounding ends with an agreement, it gives every variable the side of its sum. -/
theorem assignment_of_roundFrom (damps : a.DampsSlots) (shares : a.SharesSlots)
    {settings : RoundingSettings K} (grows : 0 ≤ settings.growth) {limit round : Nat} {delta : K}
    (nonneg : 0 ≤ delta) {c : Costs (Vector K n)} {rounding : Rounding K}
    (agreed : (a.roundFrom settings limit round delta c).2 = some rounding) :
    rounding.assignment =
      (List.finRange primals).map fun v => decide ((a.slotSums c).get v.castSucc < 0) := by
  induction limit generalizing round delta c with
  | zero => cases agreed
  | succ limit ih =>
      rw [roundFrom] at agreed
      by_cases agree : agrees (a.votes c) = true
      · rw [if_pos agree] at agreed
        cases agreed
        apply List.map_congr_left
        intro v _
        rw [Bool.eq_iff_iff, decide_eq_true_iff]
        exact someHigh_iff_of_agree (agrees_iff.mp agree v)
      · rw [if_neg agree] at agreed
        rw [ih (mul_nonneg nonneg grows) agreed]
        apply List.map_congr_left
        intro v _
        rw [decide_eq_decide]
        exact slotSums_round_neg_iff damps shares _ nonneg _ c _

end Ascent

end Order

end DualAscent
