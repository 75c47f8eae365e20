import DualAscent.Proofs.Ascent.Rounding

/-!
# The bound that rounding ends with

Where the layers of every variable agree, the total bound is the cost of what they agree on, and no
assignment of the variables costs less.  Neither pushes nor steps ever lower the bound on the way
there.
-/

namespace DualAscent

variable {primals n : Nat}

namespace Ascent

section Answer

variable {α : Type} [Scalar α] [Zero α] [Add α] [Sub α] [Mul α]

/-- What rounding answers is read off the costs that it leaves behind. -/
structure ReadOff (a : Ascent α (primals + 1) n) (c : Costs (Vector α n)) (rounding : Rounding α) :
    Prop where
  agree : agrees (a.votes c) = true
  assignment : rounding.assignment =
    (List.finRange primals).map fun v => (a.votes c).someHigh v.castSucc
  bound : rounding.bound = c.bound

theorem readOff_of_roundFrom (a : Ascent α (primals + 1) n) {settings : RoundingSettings α}
    {limit round : Nat} {delta : α} {c : Costs (Vector α n)} {rounding : Rounding α}
    (agreed : (a.roundFrom settings limit round delta c).2 = some rounding) :
    a.ReadOff (a.roundFrom settings limit round delta c).1 rounding ∧
      round ≤ rounding.rounds ∧ rounding.rounds < round + limit := by
  induction limit generalizing round delta c with
  | zero => cases agreed
  | succ limit ih =>
      rw [roundFrom] at agreed ⊢
      by_cases agree : agrees (a.votes c) = true
      · rw [if_pos agree] at agreed ⊢
        cases agreed
        exact ⟨⟨agree, rfl, rfl⟩, Nat.le_refl round, Nat.lt_add_of_pos_right (Nat.succ_pos limit)⟩
      · rw [if_neg agree] at agreed ⊢
        obtain ⟨answer, above, below⟩ := ih agreed
        exact ⟨answer, by omega, by omega⟩

/-- Rounding answers without a push exactly if the layers agree from the start. -/
theorem rounds_eq_iff_agrees (a : Ascent α (primals + 1) n) {settings : RoundingSettings α}
    {limit round : Nat} {delta : α} {c : Costs (Vector α n)} {rounding : Rounding α}
    (agreed : (a.roundFrom settings limit round delta c).2 = some rounding) :
    (rounding.rounds = round ↔ agrees (a.votes c) = true) ∧
      (rounding.rounds = round → (a.roundFrom settings limit round delta c).1 = c) := by
  cases limit with
  | zero => cases agreed
  | succ limit =>
      rw [roundFrom] at agreed ⊢
      by_cases agree : agrees (a.votes c) = true
      · rw [if_pos agree] at agreed ⊢
        cases agreed
        exact ⟨iff_of_true rfl agree, fun _ => rfl⟩
      · rw [if_neg agree] at agreed
        obtain ⟨-, later, -⟩ := a.readOff_of_roundFrom agreed
        have pushed : rounding.rounds ≠ round := by omega
        exact ⟨iff_of_false pushed agree, fun none => absurd none pushed⟩

end Answer

end Ascent

section Order

variable {K : Type} [Field K] [LinearOrder K] [IsStrictOrderedRing K] [Scalar K] [ExactScalar K]

namespace Costs

/-- Cost of all layers if each takes the branch that is assigned to its variable, and a terminal
layer the cheaper one. -/
def assigned (c : Costs (Vector K n)) (slotOf : Vector (Fin (primals + 1)) n)
    (assignment : Nat → Bool) : K :=
  (∑ l with slotOf.get l ≠ Fin.last primals,
      if assignment (slotOf.get l) then c.highCost l else c.lo.get l) +
    ∑ l with slotOf.get l = Fin.last primals, min (c.lo.get l) (c.highCost l)

variable {c : Costs (Vector K n)} {slotOf : Vector (Fin (primals + 1)) n}

omit [IsStrictOrderedRing K] in
theorem bound_eq_variables_add_terminals (c : Costs (Vector K n))
    (slotOf : Vector (Fin (primals + 1)) n) :
    c.bound = (∑ l with slotOf.get l ≠ Fin.last primals, min (c.lo.get l) (c.highCost l)) +
      ∑ l with slotOf.get l = Fin.last primals, min (c.lo.get l) (c.highCost l) := by
  rw [bound_eq_sum, add_comm,
    Finset.sum_filter_add_sum_filter_not Finset.univ fun l => slotOf.get l = Fin.last primals]

/-- The bound lies below the cost of every assignment. -/
theorem bound_le_assigned (c : Costs (Vector K n)) (slotOf : Vector (Fin (primals + 1)) n)
    (assignment : Nat → Bool) : c.bound ≤ c.assigned slotOf assignment := by
  rw [bound_eq_variables_add_terminals c slotOf, assigned]
  refine add_le_add_left (Finset.sum_le_sum fun l _ => ?_) _
  split
  · exact min_le_right _ _
  · exact min_le_left _ _

omit [IsStrictOrderedRing K] in
/-- An assignment of the branches that the layers take costs no more than the bound. -/
theorem bound_eq_assigned {assignment : Nat → Bool}
    (taken : ∀ l, slotOf.get l ≠ Fin.last primals →
      assignment (slotOf.get l) = c.takesHigh l) : c.bound = c.assigned slotOf assignment := by
  rw [bound_eq_variables_add_terminals c slotOf, assigned]
  congr 1
  apply Finset.sum_congr rfl
  intro l member
  rw [taken l (Finset.mem_filter.mp member).2, takesHigh]
  split
  · next high => exact min_eq_right ((ExactScalar.lt_iff _ _).mp high).le
  · next low => exact min_eq_left (not_lt.mp fun less => low ((ExactScalar.lt_iff _ _).mpr less))

end Costs

namespace Ascent

theorem bound_le_push (a : Ascent K (primals + 1) n) (votes : Votes (primals + 1)) {delta : K}
    (nonneg : 0 ≤ delta) (c : Costs (Vector K n)) : c.bound ≤ (a.push votes delta c).bound := by
  rw [Costs.bound_eq_sum, Costs.bound_eq_sum]
  apply Finset.sum_le_sum
  intro l _
  have raised (cost : K) (pushed : Bool) : cost ≤ if pushed then cost + delta else cost := by
    split
    · exact le_add_of_nonneg_right nonneg
    · exact le_rfl
  simp only [Costs.highCost, push, get_ofFn]
  exact min_le_min (raised _ _) (add_le_add_left (raised _ _) _)

/-- Whether or not rounding succeeds, the bound of what it leaves behind is at least the one that it
started from. -/
theorem bound_le_roundFrom {a : Ascent K (primals + 1) n} (damps : a.DampsSlots)
    (shares : a.SharesSlots) (averages : a.Averages) {settings : RoundingSettings K}
    (grows : 0 ≤ settings.growth) (limit round : Nat) {delta : K} (nonneg : 0 ≤ delta)
    (c : Costs (Vector K n)) : c.bound ≤ (a.roundFrom settings limit round delta c).1.bound := by
  induction limit generalizing round delta c with
  | zero => exact le_rfl
  | succ limit ih =>
      rw [roundFrom]
      by_cases agree : agrees (a.votes c) = true
      · rw [if_pos agree]
      · rw [if_neg agree]
        let pushed := a.push (a.votes c) delta c
        calc
          c.bound ≤ pushed.bound := a.bound_le_push (a.votes c) nonneg c
          _ ≤ (a.after settings.iterations pushed).bound :=
            bound_le_after damps shares averages settings.iterations pushed
          _ ≤ _ := ih (round + 1) (mul_nonneg nonneg grows) _

end Ascent

end Order

end DualAscent
