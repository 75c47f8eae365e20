import DualAscent.Proofs.Ascent.Decay
import DualAscent.Proofs.Solver.Reparametrisation
import DualAscent.Proofs.Solver.Rounding

/-!
# Runs settle early

A solver that damps all layers alike and shares every slot out improves its bound by less and less.
A run with a positive slope therefore ends after a number of steps that depends on the slope and
the factor alone, however many steps it may make.
-/

namespace DualAscent.Solver

open Procedure

section Answer

variable {α : Type} [Scalar α] [Zero α] [Add α] [Sub α] [Mul α] [Neg α] {s : Solver α}
  {most : Nat} {slope : α} {trend : Option (TrendRequest α)} {realized : Realized α}

/-- A run answers if and only if the room for its summary and the memory for its sums are there. -/
theorem iterate_answers_iff (weights : Vector α s.layers)
    (damping : Damping α (Vector α s.layers)) :
    (∃ realized, ((iterate weights.toArray most (damping.map Vector.toArray) slope trend).run
      s).result = .ok realized) ↔
      s.checkTrend trend = .ok () ∧ (s.cap most = 0 ∨ fitsMemory s.slots sumBytes = true) := by
  constructor
  · rintro ⟨realized, ok⟩
    exact fits_of_iterate ok
  · rintro ⟨roomy, fits⟩
    exact ⟨_, (yields_iterate weights damping slope roomy fits).result⟩

/-- A run that answers leaves the solver where its steps lead, with its length on record. -/
theorem iterate_answered (weights : Vector α s.layers) (damping : Damping α (Vector α s.layers))
    (ok : ((iterate weights.toArray most (damping.map Vector.toArray) slope trend).run
      s).result = .ok realized) :
    realized.iterations = (s.finish weights most damping slope trend).1.steps ∧
      ((iterate weights.toArray most (damping.map Vector.toArray) slope trend).run s).state =
        { s with
          costs := (s.ascent weights damping).after realized.iterations s.costs
          pending := realized.iterations :: s.pending } := by
  obtain ⟨roomy, fits⟩ := fits_of_iterate ok
  have finished := yields_iterate weights damping slope roomy fits
  obtain ⟨k, -, steps, current⟩ := (s.ascent weights damping).run_eq_after
    ⟨slope, (trend.map (·.window)).getD 0⟩ (s.cap most) (Progress.start s.costs)
  have answer := Except.ok.inj (ok.symm.trans finished.result)
  have counted : (s.finish weights most damping slope trend).1.steps = k := by
    rw [finish, steps, Progress.start, Nat.zero_add]
  have length : realized.iterations = k := by rw [answer, counted]
  refine ⟨by rw [answer], finished.state.trans ?_⟩
  rw [counted, length, finish, current]
  rfl

end Answer

variable {K : Type} [Field K]

theorem slotMargin_eq_get_slotSums (s : Solver K) (weights : Vector K s.layers)
    (damping : Damping K (Vector K s.layers)) (slot : Fin s.slots) :
    s.slotMargin slot = ((s.ascent weights damping).slotSums s.costs).get slot := by
  rw [Ascent.get_slotSums, slotMargin]
  apply Finset.sum_congr rfl
  intro l _
  rw [Costs.get_margins, Costs.highCost]

variable [LinearOrder K] [IsStrictOrderedRing K] [Scalar K] [ExactScalar K]

/-- If all layers are damped alike and every slot is shared out, the margins approach their shares
of the slots' sums geometrically.  If the updates take averages as well, the improvements of the
bound fall geometrically, and a run with a positive slope settles within as many steps as the
powers of the undamped part take to fall to the slope. -/
theorem iterate_settles (s : Solver K) (weights : Vector K s.layers) (factor : K)
    (shares : (s.ascent weights (.shared factor)).SharesSlots) :
    let a := s.ascent weights (.shared factor)
    (∀ k l, (a.after k s.costs).margins.get l =
        weights.get l * s.slotMargin (s.diagrams.slotOf.get l) + (1 - factor) ^ k *
          (s.costs.margins.get l - weights.get l * s.slotMargin (s.diagrams.slotOf.get l))) ∧
      ((∀ l, 0 ≤ weights.get l) → 0 ≤ factor → factor ≤ 1 →
        (∀ k, 0 ≤ a.improvement s.costs k ∧
          a.improvement s.costs (k + 1) ≤ (1 - factor) * a.improvement s.costs k) ∧
        ∀ slope, 0 < slope → ∀ k, 2 ≤ k → (1 - factor) ^ (k - 1) ≤ slope → ∀ most trend,
          let call := (iterate weights.toArray most (.shared factor) slope trend).run s
          (∀ realized, call.result = .ok realized → realized.iterations ≤ k ∧ call.state =
              { s with
                costs := a.after realized.iterations s.costs
                pending := realized.iterations :: s.pending }) ∧
            ((∃ realized, call.result = .ok realized) ↔ s.checkTrend trend = .ok () ∧
              (s.cap most = 0 ∨ fitsMemory s.slots sumBytes = true))) := by
  intro a
  refine ⟨fun k l => ?_, fun weights_nonneg factor_nonneg factor_le_one => ⟨fun k => ?_, ?_⟩⟩
  · rw [slotMargin_eq_get_slotSums s weights (.shared factor)]
    exact Ascent.get_margins_after rfl shares k s.costs l
  · have averages : a.Averages := ⟨weights_nonneg, fun _ => factor_nonneg, fun _ => factor_le_one⟩
    exact ⟨Ascent.improvement_nonneg (Ascent.dampsSlots_of_shared rfl) shares averages s.costs k,
      Ascent.improvement_succ_le rfl shares (sub_nonneg.mpr factor_le_one) s.costs k⟩
  · intro slope positive k some_steps fallen most trend call
    have averages : a.Averages := ⟨weights_nonneg, fun _ => factor_nonneg, fun _ => factor_le_one⟩
    refine ⟨fun realized ok => ?_, iterate_answers_iff weights (.shared factor)⟩
    have answered := iterate_answered weights (.shared factor) ok
    refine ⟨answered.1.trans_le ?_, answered.2⟩
    exact Ascent.steps_run_le rfl shares averages (sub_nonneg.mpr factor_le_one) s.costs positive
      some_steps fallen _

/-- Half a step at a time, a run that asks for three fifths of the first improvement makes two of
the nine steps it may make. -/
theorem opposed_settles :
    let weights := Ascent.evenWeights opposed.diagrams.slotOf
    let a := opposed.ascent weights (.shared (1 / 2))
    let call := (iterate weights.toArray 9 (.shared (1 / 2)) (3 / 5) none).run opposed
    (a.after 3 opposed.costs).margins.get ⟨1, by decide⟩ = 1 / 2 + (1 / 2) ^ 3 * (-2 - 1 / 2) ∧
      a.improvement opposed.costs 0 = 5 / 4 ∧
      a.improvement opposed.costs 1 ≤ 1 / 2 * (5 / 4) ∧
      ∃ realized, call.result = .ok realized ∧ realized.iterations ≤ 2 := by
  intro weights a call
  obtain ⟨line, settles⟩ := iterate_settles opposed weights (1 / 2)
    (Ascent.sharesSlots_evenWeights _ _)
  have weights_nonneg : ∀ l, 0 ≤ weights.get l := by
    intro l
    rw [Ascent.get_evenWeights]
    exact one_div_nonneg.mpr (Nat.cast_nonneg _)
  obtain ⟨improves, short⟩ := settles weights_nonneg (by norm_num) (by norm_num)
  obtain ⟨short, answers⟩ :=
    short (3 / 5) (by norm_num) 2 (le_refl 2) (by norm_num) 9 none
  obtain ⟨realized, ok⟩ := answers.mpr ⟨rfl, .inr (by decide)⟩
  have first : a.improvement opposed.costs 0 = 5 / 4 := by decide +kernel
  refine ⟨?_, first, ?_, realized, ok, (short realized ok).1⟩
  · rw [line]
    decide +kernel
  · have second := (improves 0).2
    rw [first] at second
    refine second.trans_eq ?_
    norm_num

end DualAscent.Solver
