import DualAscent.Proofs.Ascent.FirstOrder
import DualAscent.Proofs.Ascent.Sweep

/-!
# Reverse sweeps are adjoint to first-order changes

Pairing the result of a reverse sweep with a direction gives what pairing the swept gradient with
the first-order change along the direction gives, because every reverse step does so.
-/

namespace DualAscent

open DualNumber TrivSqZeroExt

variable {R : Type} [CommRing R] {slots n : Nat}

/-- Pairing of families. -/
def entryDot (first second : Vector R n) : R := dot first.toArray second.toArray

theorem entryDot_eq_sum (first second : Vector R n) :
    entryDot first second = ∑ l, first.get l * second.get l :=
  dot_toArray first second

namespace Damping

/-- What is accumulated is paired with the factor of every layer. -/
theorem pair_accumulate {gradient direction : Damping R (Vector R n)}
    (matched : gradient.Matches direction) (amounts : Vector R n) :
    (gradient.accumulate amounts).pair entryDot direction =
      gradient.pair entryDot direction + ∑ l, amounts.get l * direction.factor l := by
  cases gradient with
  | shared total =>
      cases direction with
      | perLayer factors => cases matched
      | shared factor =>
          show amounts.foldl (· + ·) total * factor = total * factor + _
          rw [foldl_add_eq_sum, add_mul, Finset.sum_mul]
          rfl
  | perLayer values =>
      cases direction with
      | shared factor => cases matched
      | perLayer factors =>
          show entryDot (values.zipWith (· + ·) amounts) factors = entryDot values factors + _
          rw [entryDot_eq_sum, entryDot_eq_sum, ← Finset.sum_add_distrib]
          apply Finset.sum_congr rfl
          intro l _
          have added : (values.zipWith (· + ·) amounts).get l = values.get l + amounts.get l :=
            Vector.getElem_zipWith l.isLt
          rw [added, add_mul]
          rfl

end Damping

namespace Ascent

/-- The changes of everything that a run depends on. -/
def changes (a : Ascent R[ε] slots n) (c : Costs (Vector R[ε] n)) : Inputs R (Vector R n) :=
  ⟨c.change, a.weights.map snd, a.damping.change⟩

theorem get_slotSums_change (a : Ascent R[ε] slots n) (c : Costs (Vector R[ε] n))
    (slot : Fin slots) :
    ((a.slotSums c).get slot).snd = (sumBy a.slotOf (c.margins.map snd)).get slot := by
  rw [slotSums, get_sumBy, get_sumBy, snd_sum]
  exact Finset.sum_congr rfl fun l _ => (get_map snd c.margins l).symm

/-- For every slot the sum of what its layers took back from the update that is reversed. -/
def returned (a : Ascent R slots n) (outer : Vector R n) : Vector R slots :=
  sumBy a.slotOf (Vector.ofFn fun l => a.damping.factor l * a.weights.get l * outer.get l)

/-- The gradient of a layer's min-marginal difference. -/
def marginGradient (a : Ascent R slots n) (outer : Vector R n) (l : Fin n) : R :=
  (-a.damping.factor l) * outer.get l + (a.returned outer).get (a.slotOf.get l)

theorem sum_returned_mul (a : Ascent R[ε] slots n) (c : Costs (Vector R[ε] n))
    (outer : Vector R n) :
    ∑ l, (a.value.returned outer).get (a.slotOf.get l) * (c.margins.get l).snd =
      ∑ l, a.value.damping.factor l * a.value.weights.get l * outer.get l *
        ((a.slotSums c).get (a.slotOf.get l)).snd := by
  have moved := sum_mul_get_sumBy a.slotOf (Vector.ofFn fun l =>
    a.value.damping.factor l * a.value.weights.get l * outer.get l) (c.margins.map snd)
  simp only [get_ofFn, get_map] at moved
  simp only [get_slotSums_change]
  exact moved.symm

/-- What a layer contributes to both sides of a reverse step, up to what its slot returns. -/
theorem layer_balance (a : Ascent R[ε] slots n) (c : Costs (Vector R[ε] n))
    (g : Inputs R (Vector R n)) (l : Fin n) :
    (g.costs.lo.get l - a.value.marginGradient g.costs.deferred l) * c.change.lo.get l +
        (g.costs.hi.get l + a.value.marginGradient g.costs.deferred l) * c.change.hi.get l +
        (g.costs.deferred.get l + a.value.marginGradient g.costs.deferred l) *
          c.change.deferred.get l +
        (g.weights.get l + a.value.damping.factor l *
          (a.value.slotSums c.value).get (a.slotOf.get l) * g.costs.deferred.get l) *
            (a.weights.get l).snd +
        (-a.value.excess c.value.margins (a.value.slotSums c.value) l) *
          g.costs.deferred.get l * a.damping.change.factor l =
      g.costs.lo.get l * c.change.lo.get l + g.costs.hi.get l * c.change.hi.get l +
        g.costs.deferred.get l * (a.step c).change.deferred.get l +
        g.weights.get l * (a.weights.get l).snd +
        ((a.value.returned g.costs.deferred).get (a.slotOf.get l) * (c.margins.get l).snd -
          a.value.damping.factor l * a.value.weights.get l * g.costs.deferred.get l *
            ((a.slotSums c).get (a.slotOf.get l)).snd) := by
  have factor_eq : a.value.damping.factor l = (a.damping.factor l).fst :=
    Damping.factor_value a.damping l
  have weight_eq : a.value.weights.get l = (a.weights.get l).fst := get_map fst a.weights l
  have returned_eq : a.value.slotOf = a.slotOf := rfl
  rw [get_change_step, marginGradient, returned_eq, excess_value, get_slotSums_value, factor_eq,
    weight_eq, Costs.get_margins_change, Damping.factor_change]
  ring

/-- A reverse step is adjoint to the first-order change of a step. -/
theorem pair_stepBackward (a : Ascent R[ε] slots n) (c : Costs (Vector R[ε] n))
    (g : Inputs R (Vector R n)) (matched : g.damping.Matches a.damping.change) :
    (a.value.stepBackward c.value g).pair entryDot (a.changes c) =
      g.pair entryDot (a.changes (a.step c)) := by
  have total := Finset.sum_congr (rfl : Finset.univ = Finset.univ) fun l _ => a.layer_balance c g l
  simp only [Finset.sum_add_distrib, Finset.sum_sub_distrib] at total
  rw [sum_returned_mul, sub_self, add_zero] at total
  have ofDamping := Damping.pair_accumulate matched (Vector.ofFn fun l =>
    (-a.value.excess c.value.margins (a.value.slotSums c.value) l) * g.costs.deferred.get l)
  have damping_eq : (a.value.stepBackward c.value g).damping = g.damping.accumulate
    (Vector.ofFn fun l => (-a.value.excess c.value.margins (a.value.slotSums c.value) l) *
      g.costs.deferred.get l) := rfl
  simp only [get_ofFn] at ofDamping
  simp only [Inputs.pair, Costs.pair, damping_eq]
  simp only [changes]
  rw [ofDamping, add_left_comm, add_comm _ (g.damping.pair entryDot a.damping.change)]
  refine congrArg (g.damping.pair entryDot a.damping.change + ·) ?_
  simp only [entryDot_eq_sum, get_map, stepBackward, get_ofFn]
  exact total

/-- A reverse sweep is adjoint to the first-order change of the steps. -/
theorem pair_sweep (a : Ascent R[ε] slots n) (k : Nat) (c : Costs (Vector R[ε] n))
    (g : Inputs R (Vector R n)) (matched : g.damping.Matches a.damping.change) :
    (a.value.sweep (a.value.trace k c.value) g).pair entryDot (a.changes c) =
      g.pair entryDot (a.changes (a.after k c)) := by
  induction k generalizing c with
  | zero => rfl
  | succ k ih =>
      have swept := a.value.matches_sweep (a.value.trace k (a.step c).value) matched
      calc
        (a.value.sweep (a.value.trace (k + 1) c.value) g).pair entryDot (a.changes c) =
            (a.value.stepBackward c.value
              (a.value.sweep (a.value.trace k (a.step c).value) g)).pair entryDot
                (a.changes c) := by rw [value_step]; rfl
        _ = (a.value.sweep (a.value.trace k (a.step c).value) g).pair entryDot
              (a.changes (a.step c)) := a.pair_stepBackward c _ swept
        _ = g.pair entryDot (a.changes (a.after (k + 1) c)) := ih (a.step c)

end Ascent

end DualAscent
