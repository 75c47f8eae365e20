import DualAscent.Ascent.Step
import DualAscent.Proofs.Entries
import DualAscent.Proofs.GroupedSum
import DualAscent.Proofs.Pairing
import Mathlib.Algebra.DualNumber
import Mathlib.Tactic.Ring

/-!
# First-order changes of a dual ascent

Over dual numbers the steps of an ascent carry a first-order change along.  The values follow the
steps over the base ring, and the change of the deferred min-marginals is the derivative of a
step.
-/

namespace DualAscent

open DualNumber TrivSqZeroExt

variable {R : Type} [CommRing R] {slots n : Nat}

/-- A value with a first-order change. -/
def jet (value change : R) : R[ε] := inl value + inr change

@[simp]
theorem fst_jet (value change : R) : (jet value change).fst = value := by
  simp [jet]

@[simp]
theorem snd_jet (value change : R) : (jet value change).snd = change := by
  simp [jet]

/-- Values with their first-order changes. -/
def jets (values changes : Vector R n) : Vector R[ε] n :=
  Vector.ofFn fun l => jet (values.get l) (changes.get l)

@[simp]
theorem map_fst_jets (values changes : Vector R n) : (jets values changes).map fst = values := by
  apply ext_get
  intro l
  rw [get_map, jets, get_ofFn, fst_jet]

@[simp]
theorem map_snd_jets (values changes : Vector R n) : (jets values changes).map snd = changes := by
  apply ext_get
  intro l
  rw [get_map, jets, get_ofFn, snd_jet]

namespace Damping

/-- Damping factors with the changes of factors of the same kind. -/
def jets (values changes : Damping R (Vector R n)) : Damping R[ε] (Vector R[ε] n) :=
  match values with
  | shared factor => .shared (jet factor (changes.shared?.getD 0))
  | perLayer factors => .perLayer (Vector.ofFn fun l => jet (factors.get l) (changes.factor l))

/-- The damping factors without their changes. -/
def value (damping : Damping R[ε] (Vector R[ε] n)) : Damping R (Vector R n) :=
  match damping with
  | shared factor => .shared factor.fst
  | perLayer factors => .perLayer (factors.map fst)

/-- The changes of the damping factors. -/
def change (damping : Damping R[ε] (Vector R[ε] n)) : Damping R (Vector R n) :=
  match damping with
  | shared factor => .shared factor.snd
  | perLayer factors => .perLayer (factors.map snd)

omit [CommRing R] in
@[simp]
theorem factor_value (damping : Damping R[ε] (Vector R[ε] n)) (l : Fin n) :
    damping.value.factor l = (damping.factor l).fst := by
  cases damping with
  | shared factor => rfl
  | perLayer factors => exact get_map fst factors l

omit [CommRing R] in
@[simp]
theorem factor_change (damping : Damping R[ε] (Vector R[ε] n)) (l : Fin n) :
    damping.change.factor l = (damping.factor l).snd := by
  cases damping with
  | shared factor => rfl
  | perLayer factors => exact get_map snd factors l

@[simp]
theorem value_jets (values changes : Damping R (Vector R n)) :
    (values.jets changes).value = values := by
  cases values with
  | shared factor => exact congrArg shared (fst_jet _ _)
  | perLayer factors =>
      refine congrArg perLayer (ext_get fun l => ?_)
      rw [get_map, get_ofFn, fst_jet]

theorem change_jets {values changes : Damping R (Vector R n)} (matched : values.Matches changes) :
    (values.jets changes).change = changes := by
  cases values with
  | shared factor =>
      cases changes with
      | perLayer moves => cases matched
      | shared move => exact congrArg shared (snd_jet _ _)
  | perLayer factors =>
      cases changes with
      | shared move => cases matched
      | perLayer moves =>
          refine congrArg perLayer (ext_get fun l => ?_)
          rw [get_map, get_ofFn, snd_jet, factor_perLayer]

end Damping

namespace Costs

/-- Costs with their first-order changes. -/
def jets (values changes : Costs (Vector R n)) : Costs (Vector R[ε] n) :=
  ⟨⟨DualAscent.jets values.lo changes.lo, DualAscent.jets values.hi changes.hi⟩,
    DualAscent.jets values.deferred changes.deferred⟩

/-- The costs without their changes. -/
def value (c : Costs (Vector R[ε] n)) : Costs (Vector R n) := c.map (Vector.map fst)

/-- The changes of the costs. -/
def change (c : Costs (Vector R[ε] n)) : Costs (Vector R n) := c.map (Vector.map snd)

@[simp]
theorem value_jets (values changes : Costs (Vector R n)) :
    (values.jets changes).value = values := by
  simp only [value, jets, map, map_fst_jets]

@[simp]
theorem change_jets (values changes : Costs (Vector R n)) :
    (values.jets changes).change = changes := by
  simp only [change, jets, map, map_snd_jets]

theorem get_margins_value (c : Costs (Vector R[ε] n)) (l : Fin n) :
    c.value.margins.get l = (c.margins.get l).fst := by
  simp [value, Costs.map, highCost]

theorem get_margins_change (c : Costs (Vector R[ε] n)) (l : Fin n) :
    (c.margins.get l).snd =
      c.change.hi.get l + c.change.deferred.get l - c.change.lo.get l := by
  simp [change, Costs.map, highCost]

end Costs

namespace Ascent

/-- The ascent without the changes of its weights and damping. -/
def value (a : Ascent R[ε] slots n) : Ascent R slots n :=
  ⟨a.slotOf, a.weights.map fst, a.damping.value⟩

theorem get_slotSums_value (a : Ascent R[ε] slots n) (c : Costs (Vector R[ε] n))
    (slot : Fin slots) :
    (a.value.slotSums c.value).get slot = ((a.slotSums c).get slot).fst := by
  rw [slotSums, slotSums, get_sumBy, get_sumBy, fst_sum]
  exact Finset.sum_congr rfl fun l _ => Costs.get_margins_value c l

theorem excess_value (a : Ascent R[ε] slots n) (c : Costs (Vector R[ε] n)) (l : Fin n) :
    a.value.excess c.value.margins (a.value.slotSums c.value) l =
      (a.excess c.margins (a.slotSums c) l).fst := by
  rw [excess, excess, Costs.get_margins_value]
  have weight : a.value.weights.get l = (a.weights.get l).fst := get_map fst a.weights l
  rw [show a.value.slotOf = a.slotOf from rfl, get_slotSums_value, weight, fst_sub, fst_mul]

theorem value_step (a : Ascent R[ε] slots n) (c : Costs (Vector R[ε] n)) :
    (a.step c).value = a.value.step c.value := by
  have deferred : (a.step c).value.deferred = (a.value.step c.value).deferred := by
    apply ext_get
    intro l
    have stepped := congrArg fst (get_step_deferred a c l)
    rw [fst_sub, fst_mul, ← excess_value, ← Damping.factor_value] at stepped
    rw [get_step_deferred]
    exact (get_map fst (a.step c).deferred l).trans (stepped.trans
      (congrArg (· - _) (get_map fst c.deferred l).symm))
  calc
    (a.step c).value = ⟨⟨c.value.lo, c.value.hi⟩, (a.step c).value.deferred⟩ := rfl
    _ = a.value.step c.value := by rw [deferred]; rfl

/-- The derivative of a step. -/
theorem get_change_step (a : Ascent R[ε] slots n) (c : Costs (Vector R[ε] n)) (l : Fin n) :
    (a.step c).change.deferred.get l = c.change.deferred.get l -
      ((a.damping.factor l).fst * ((c.margins.get l).snd -
          ((a.weights.get l).fst * ((a.slotSums c).get (a.slotOf.get l)).snd +
            (a.weights.get l).snd * ((a.slotSums c).get (a.slotOf.get l)).fst)) +
        (a.damping.factor l).snd * (a.excess c.margins (a.slotSums c) l).fst) := by
  have stepped := congrArg snd (get_step_deferred a c l)
  rw [snd_sub, DualNumber.snd_mul] at stepped
  rw [excess, snd_sub, DualNumber.snd_mul] at stepped
  have changed : (a.step c).change.deferred.get l = ((a.step c).deferred.get l).snd :=
    get_map snd (a.step c).deferred l
  have changed' : c.change.deferred.get l = (c.deferred.get l).snd := get_map snd c.deferred l
  rw [changed, changed', stepped]
  rfl

end Ascent

end DualAscent
