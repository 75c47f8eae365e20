import DualAscent.Proofs.Ascent.Rounding

/-!
# Rounding reaches an agreement

The layers of a slot agree when none of their margins lies on the other side of zero than the
slot's sum.  Dual steps never take a margin further across than the furthest one was, and a push
brings all margins of a disputed slot back by its amount.  So layers that agree once agree for good,
and rounding needs no more rounds than pushes of the first size pay for.
-/

namespace DualAscent

variable {primals n : Nat}

namespace Ascent

section Rounds

variable {α : Type} [Scalar α] [Zero α] [Add α] [Sub α] [Mul α]

/-- The costs after some rounds of pushes and steps, whether or not layers agree by then. -/
def afterRounds (a : Ascent α (primals + 1) n) (settings : RoundingSettings α) :
    (rounds : Nat) → (delta : α) → Costs (Vector α n) → Costs (Vector α n)
  | 0, _, c => c
  | rounds + 1, delta, c =>
    a.afterRounds settings rounds (delta * settings.growth)
      (a.after settings.iterations (a.push (a.votes c) delta c))

/-- Rounding that succeeds ends in the first round in which the layers of all variables agree. -/
theorem roundFrom_eq_afterRounds (a : Ascent α (primals + 1) n) {settings : RoundingSettings α}
    {limit round : Nat} {delta : α} {c : Costs (Vector α n)} {rounding : Rounding α}
    (agreed : (a.roundFrom settings limit round delta c).2 = some rounding) :
    ∃ rounds, rounding.rounds = round + rounds ∧
      (a.roundFrom settings limit round delta c).1 = a.afterRounds settings rounds delta c ∧
      agrees (a.votes (a.afterRounds settings rounds delta c)) = true ∧
      ∀ earlier < rounds, agrees (a.votes (a.afterRounds settings earlier delta c)) = false := by
  induction limit generalizing round delta c with
  | zero => cases agreed
  | succ limit ih =>
      rw [roundFrom] at agreed ⊢
      by_cases agree : agrees (a.votes c) = true
      · rw [if_pos agree] at agreed ⊢
        cases agreed
        exact ⟨0, rfl, rfl, agree, fun _ earlier => absurd earlier (Nat.not_lt_zero _)⟩
      · rw [if_neg agree] at agreed ⊢
        obtain ⟨rounds, counted, reached, last, before⟩ := ih agreed
        refine ⟨rounds + 1, by omega, reached, last, fun earlier sooner => ?_⟩
        cases earlier with
        | zero => exact eq_false_of_ne_true agree
        | succ earlier => exact before earlier (Nat.lt_of_succ_lt_succ sooner)

end Rounds

section Votes

variable {α : Type} [Scalar α] [Add α] {a : Ascent α (primals + 1) n} {c : Costs (Vector α n)}
  {slot : Fin (primals + 1)}

theorem disagree_eq_false_of_takesHigh {value : Bool}
    (same : ∀ l, a.slotOf.get l = slot → c.takesHigh l = value) :
    (a.votes c).disagree slot = false := by
  cases value with
  | false =>
      have none_high : ¬(a.votes c).someHigh slot = true := by
        intro some_high
        obtain ⟨l, here, high⟩ := someHigh_votes_iff.mp some_high
        rw [same l here] at high
        cases high
      rw [Votes.someHigh, decide_eq_true_iff] at none_high
      rw [Votes.disagree, decide_eq_false none_high, Bool.false_and]
  | true =>
      have all_high : (a.votes c).high.get slot = (a.votes c).cast.get slot := by
        rw [votes, get_countBy, get_countBy]
        congr 1
        apply Finset.filter_congr
        intro l _
        constructor
        · rintro ⟨here, -⟩
          exact ⟨here, rfl⟩
        · rintro ⟨here, -⟩
          exact ⟨here, same l here⟩
      rw [Votes.disagree, all_high, decide_eq_false (lt_irrefl _), Bool.and_false]

end Votes

variable {K : Type} [Field K] [LinearOrder K] [IsStrictOrderedRing K]

/-- No margin of the slot's layers lies further than a gap across zero from the slot's sum. -/
structure Within (a : Ascent K (primals + 1) n) (c : Costs (Vector K n))
    (slot : Fin (primals + 1)) (gap : K) : Prop where
  of_nonneg : 0 ≤ (a.slotSums c).get slot → ∀ l, a.slotOf.get l = slot → -gap ≤ c.margins.get l
  of_neg : (a.slotSums c).get slot < 0 → ∀ l, a.slotOf.get l = slot → c.margins.get l < gap

variable {a : Ascent K (primals + 1) n} {c : Costs (Vector K n)} {slot : Fin (primals + 1)}
  {gap : K}

theorem Within.mono (within : a.Within c slot gap) {wider : K} (le : gap ≤ wider) :
    a.Within c slot wider :=
  ⟨fun nonneg l here => (neg_le_neg le).trans (within.of_nonneg nonneg l here),
    fun neg l here => (within.of_neg neg l here).trans_le le⟩

/-- Damped averages do not take any margin further across. -/
theorem Within.step (within : a.Within c slot gap) (nonneg : 0 ≤ gap) (damps : a.DampsSlots)
    (shares : a.SharesSlots) (averages : a.Averages)
    (partly : ∀ l, a.damping.factor l < 1) : a.Within (a.step c) slot gap := by
  have moved (l : Fin n) (here : a.slotOf.get l = slot) :
      (a.step c).margins.get l = (1 - a.damping.factor l) * c.margins.get l +
        a.damping.factor l * (a.weights.get l * (a.slotSums c).get slot) := by
    rw [get_margins_step, excess, here]
    ring
  have damped (l : Fin n) : 0 ≤ a.damping.factor l * gap :=
    mul_nonneg (averages.factor_nonneg l) nonneg
  constructor
  · intro sum_nonneg l here
    rw [get_slotSums_step damps shares] at sum_nonneg
    have kept := mul_le_mul_of_nonneg_left (within.of_nonneg sum_nonneg l here)
      (sub_nonneg.mpr (averages.factor_le_one l))
    have handed := mul_nonneg (averages.factor_nonneg l)
      (mul_nonneg (averages.weights_nonneg l) sum_nonneg)
    rw [moved l here]
    linarith [damped l]
  · intro sum_neg l here
    rw [get_slotSums_step damps shares] at sum_neg
    have kept := mul_lt_mul_of_pos_left (within.of_neg sum_neg l here)
      (sub_pos.mpr (partly l))
    have handed := mul_nonpos_of_nonneg_of_nonpos (averages.factor_nonneg l)
      (mul_nonpos_of_nonneg_of_nonpos (averages.weights_nonneg l) sum_neg.le)
    rw [moved l here]
    linarith [damped l]

theorem Within.after (within : a.Within c slot gap) (nonneg : 0 ≤ gap) (damps : a.DampsSlots)
    (shares : a.SharesSlots) (averages : a.Averages)
    (partly : ∀ l, a.damping.factor l < 1) (k : Nat) : a.Within (a.after k c) slot gap := by
  induction k generalizing c with
  | zero => exact within
  | succ k ih => exact ih (within.step nonneg damps shares averages partly)

variable [Scalar K] [ExactScalar K]

theorem Within.takesHigh_eq (within : a.Within c slot 0) {l : Fin n}
    (here : a.slotOf.get l = slot) :
    c.takesHigh l = decide ((a.slotSums c).get slot < 0) := by
  rw [Bool.eq_iff_iff, decide_eq_true_iff, Costs.takesHigh_iff]
  constructor
  · intro below
    by_contra above
    have reached := within.of_nonneg (not_lt.mp above) l here
    rw [neg_zero] at reached
    exact absurd below (not_lt.mpr reached)
  · intro neg
    exact within.of_neg neg l here

/-- The layers of a slot agree exactly if none of them is across zero from the slot's sum. -/
theorem disagree_eq_false_iff_within :
    (a.votes c).disagree slot = false ↔ a.Within c slot 0 := by
  constructor
  · intro agree
    have side {l : Fin n} (here : a.slotOf.get l = slot) :
        c.margins.get l < 0 ↔ (a.slotSums c).get slot < 0 := by
      rw [← Costs.takesHigh_iff, takesHigh_eq_someHigh agree here, someHigh_iff_of_agree agree]
    constructor
    · intro nonneg l here
      rw [neg_zero]
      exact not_lt.mp fun below => absurd ((side here).mp below) (not_lt.mpr nonneg)
    · intro neg l here
      exact (side here).mpr neg
  · intro within
    exact disagree_eq_false_of_takesHigh fun l here => within.takesHigh_eq here

/-- A push leaves the layers alone where they agree. -/
theorem Within.push_of_agree {delta : K} (agree : (a.votes c).disagree slot = false) :
    a.Within (a.push (a.votes c) delta c) slot 0 := by
  have within := disagree_eq_false_iff_within.mp agree
  have sum : (a.slotSums (a.push (a.votes c) delta c)).get slot = (a.slotSums c).get slot := by
    rw [get_slotSums_push, shift_eq_zero agree, mul_zero, add_zero]
  have margin {l : Fin n} (here : a.slotOf.get l = slot) :
      (a.push (a.votes c) delta c).margins.get l = c.margins.get l := by
    rw [get_margins_push, here, shift_eq_zero agree, add_zero]
  constructor
  · intro nonneg l here
    rw [margin here]
    exact within.of_nonneg (sum ▸ nonneg) l here
  · intro neg l here
    rw [margin here]
    exact within.of_neg (sum ▸ neg) l here

/-- A push brings the margins of a disputed variable back by its amount. -/
theorem Within.push (within : a.Within c slot gap) {delta : K} (nonneg : 0 ≤ delta)
    (variable_slot : slot ≠ Fin.last primals) (disputed : (a.votes c).disagree slot = true) :
    a.Within (a.push (a.votes c) delta c) slot (gap - delta) := by
  have shifted : a.shift (a.votes c) delta c slot =
      if (a.slotSums c).get slot < 0 then -delta else delta := by
    simp only [shift, disputed, decide_eq_true variable_slot, Bool.and_true, if_true,
      ExactScalar.lt_iff]
  have side := slotSums_push_neg_iff a (a.votes c) nonneg c slot
  constructor
  · intro sum_nonneg l here
    have above := not_lt.mp (mt side.mpr (not_lt.mpr sum_nonneg))
    have margin := within.of_nonneg above l here
    rw [get_margins_push, here, shifted, if_neg (not_lt.mpr above)]
    linarith
  · intro sum_neg l here
    have below := side.mp sum_neg
    have margin := within.of_neg below l here
    rw [get_margins_push, here, shifted, if_pos below]
    linarith

/-- Layers that agree keep their branch over a round. -/
theorem takesHigh_round (damps : a.DampsSlots) (shares : a.SharesSlots) (averages : a.Averages)
    (partly : ∀ l, a.damping.factor l < 1) {value : Bool}
    (same : ∀ l, a.slotOf.get l = slot → c.takesHigh l = value) (delta : K) (k : Nat) (l : Fin n)
    (here : a.slotOf.get l = slot) :
    (a.after k (a.push (a.votes c) delta c)).takesHigh l = value := by
  have agree := disagree_eq_false_of_takesHigh same
  have pushed : a.Within (a.push (a.votes c) delta c) slot 0 := Within.push_of_agree agree
  have within := pushed.after (le_refl 0) damps shares averages partly k
  have sum : (a.slotSums (a.after k (a.push (a.votes c) delta c))).get slot =
      (a.slotSums c).get slot := by
    rw [get_slotSums_after damps shares, get_slotSums_push, shift_eq_zero agree, mul_zero,
      add_zero]
  rw [within.takesHigh_eq here, sum, ← same l here,
    (disagree_eq_false_iff_within.mp agree).takesHigh_eq here]

/-- Layers that agree in some round take the same branch in every later round. -/
theorem takesHigh_afterRounds (damps : a.DampsSlots) (shares : a.SharesSlots)
    (averages : a.Averages) (partly : ∀ l, a.damping.factor l < 1)
    (settings : RoundingSettings K) {value : Bool} {earlier later : Nat} (le : earlier ≤ later)
    (delta : K)
    (same : ∀ l, a.slotOf.get l = slot →
      (a.afterRounds settings earlier delta c).takesHigh l = value) (l : Fin n)
    (here : a.slotOf.get l = slot) :
    (a.afterRounds settings later delta c).takesHigh l = value := by
  induction later generalizing earlier delta c with
  | zero =>
      obtain rfl : earlier = 0 := Nat.le_zero.mp le
      exact same l here
  | succ later ih =>
      cases earlier with
      | zero =>
          refine ih (Nat.zero_le later) _ fun l' here' => ?_
          exact takesHigh_round damps shares averages partly same delta _ l' here'
      | succ earlier => exact ih (Nat.le_of_succ_le_succ le) _ same

/-- One round closes a gap by the size of its push. -/
theorem Within.round (damps : a.DampsSlots) (shares : a.SharesSlots) (averages : a.Averages)
    (partly : ∀ l, a.damping.factor l < 1) {first delta : K}
    (within : a.Within c slot (gap + first)) (gap_nonneg : 0 ≤ gap) (first_nonneg : 0 ≤ first)
    (at_least : first ≤ delta) (variable_slot : slot ≠ Fin.last primals) (k : Nat) :
    a.Within (a.after k (a.push (a.votes c) delta c)) slot gap := by
  refine Within.after ?_ gap_nonneg damps shares averages partly k
  cases disputed : (a.votes c).disagree slot with
  | false => exact (Within.push_of_agree disputed).mono gap_nonneg
  | true =>
      exact (within.push (first_nonneg.trans at_least) variable_slot disputed).mono (by linarith)

/-- If pushes do not shrink, rounding agrees within as many rounds as pushes of the first size
close every gap. -/
theorem roundFrom_agrees (damps : a.DampsSlots) (shares : a.SharesSlots) (averages : a.Averages)
    (partly : ∀ l, a.damping.factor l < 1) {settings : RoundingSettings K}
    (grows : 1 ≤ settings.growth) {first : K} (first_nonneg : 0 ≤ first) {pushes limit : Nat}
    (enough : pushes < limit) (round : Nat) {delta : K} (at_least : first ≤ delta)
    (within : ∀ v : Fin primals, a.Within c v.castSucc (pushes * first)) :
    ∃ rounding, (a.roundFrom settings limit round delta c).2 = some rounding ∧
      rounding.rounds ≤ round + pushes := by
  induction pushes generalizing limit round delta c with
  | zero =>
      obtain ⟨limit, rfl⟩ := Nat.exists_eq_succ_of_ne_zero (Nat.ne_of_gt enough)
      have agree : agrees (a.votes c) = true := by
        refine agrees_iff.mpr fun v => disagree_eq_false_iff_within.mpr ?_
        simpa using within v
      rw [roundFrom, if_pos agree]
      exact ⟨_, rfl, Nat.le_refl round⟩
  | succ pushes ih =>
      obtain ⟨limit, rfl⟩ := Nat.exists_eq_succ_of_ne_zero (Nat.ne_zero_of_lt enough)
      rw [roundFrom]
      by_cases agree : agrees (a.votes c) = true
      · rw [if_pos agree]
        exact ⟨_, rfl, Nat.le_add_right round _⟩
      · rw [if_neg agree]
        have delta_nonneg : 0 ≤ delta := first_nonneg.trans at_least
        have grown : first ≤ delta * settings.growth :=
          at_least.trans (le_mul_of_one_le_right delta_nonneg grows)
        have closer (v : Fin primals) : a.Within
            (a.after settings.iterations (a.push (a.votes c) delta c)) v.castSucc
              (pushes * first) := by
          have gap := within v
          rw [Nat.cast_succ, add_one_mul] at gap
          exact gap.round damps shares averages partly
            (mul_nonneg (Nat.cast_nonneg pushes) first_nonneg) first_nonneg at_least
            (Fin.castSucc_lt_last v).ne settings.iterations
        obtain ⟨rounding, agreed, rounds⟩ :=
          ih (Nat.lt_of_succ_lt_succ enough) (round + 1) grown closer
        exact ⟨rounding, agreed, by omega⟩

end Ascent

end DualAscent
