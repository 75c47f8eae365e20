import DualAscent.Ascent.Margins
import DualAscent.Proofs.Batch.Family
import DualAscent.Proofs.GroupedSum
import DualAscent.Proofs.Operation.Call
import Mathlib.Tactic.Ring

/-!
# Transposed formulas

What a gradient gains by a change of the entries that it belongs to is its pairing with their
difference.  A linear formula changes its result by an image of the difference, and what a gradient
of the result gains by that is what its image under the transposed formula gains by the difference.
-/

namespace DualAscent

variable {R : Type} [CommRing R]

/-- What a gradient gains by a change of an array. -/
def gain (gradient later earlier : Array R) : R := dot gradient (difference later earlier)

/-- What a gradient gains by a change of a family. -/
def gainOf {n : Nat} (gradient later earlier : Vector R n) : R :=
  ∑ l, gradient.get l * (later.get l - earlier.get l)

/-- What gradients of both branches' costs gain. -/
def Branches.gain {τ : Type} (one : τ → τ → τ → R) (gradient later earlier : Branches τ) : R :=
  one gradient.lo later.lo earlier.lo + one gradient.hi later.hi earlier.hi

/-- What gradients of working costs gain. -/
def Costs.gain {τ : Type} (one : τ → τ → τ → R) (gradient later earlier : Costs τ) : R :=
  gradient.toBranches.gain one later.toBranches earlier.toBranches +
    one gradient.deferred later.deferred earlier.deferred

/-- What gradients of perturbations and costs gain. -/
def Perturbed.gain {τ : Type} (one : τ → τ → τ → R) (gradient later earlier : Perturbed τ) : R :=
  gradient.change.gain one later.change earlier.change +
    gradient.costs.gain one later.costs earlier.costs

section Families

variable {m : Nat} {size : Fin m → Nat}

/-- Joined families gain what their parts do. -/
theorem gain_joined (gradient later earlier : (i : Fin m) → Vector R (size i)) :
    gain (joined (List.ofFn fun i => (gradient i).toArray))
        (joined (List.ofFn fun i => (later i).toArray))
        (joined (List.ofFn fun i => (earlier i).toArray)) =
      ∑ i, gainOf (gradient i) (later i) (earlier i) :=
  dot_difference_joined gradient later earlier

theorem gain_joinBranches (gradient later earlier : (i : Fin m) → Branches (Vector R (size i))) :
    (Operation.joinBranches (List.ofFn fun i => (gradient i).map Vector.toArray)).gain gain
        (Operation.joinBranches (List.ofFn fun i => (later i).map Vector.toArray))
        (Operation.joinBranches (List.ofFn fun i => (earlier i).map Vector.toArray)) =
      ∑ i, (gradient i).gain gainOf (later i) (earlier i) := by
  simp only [Operation.joinBranches, List.map_ofFn, Function.comp_def, Branches.map, Branches.gain,
    Finset.sum_add_distrib]
  exact congrArg₂ (· + ·) (gain_joined _ _ _) (gain_joined _ _ _)

theorem gain_joinCosts (gradient later earlier : (i : Fin m) → Costs (Vector R (size i))) :
    (Operation.joinCosts (List.ofFn fun i => (gradient i).map Vector.toArray)).gain gain
        (Operation.joinCosts (List.ofFn fun i => (later i).map Vector.toArray))
        (Operation.joinCosts (List.ofFn fun i => (earlier i).map Vector.toArray)) =
      ∑ i, (gradient i).gain gainOf (later i) (earlier i) := by
  simp only [Operation.joinCosts, List.map_ofFn, Function.comp_def, Costs.map, Branches.gain,
    Costs.gain, Finset.sum_add_distrib]
  exact congrArg₂ (· + ·) (congrArg₂ (· + ·) (gain_joined _ _ _) (gain_joined _ _ _))
    (gain_joined _ _ _)

end Families

variable {n slots : Nat}

theorem gainOf_replicate (gradient : Vector R n) (value : R) :
    gainOf gradient (Vector.replicate n value) (Vector.replicate n value) = 0 := by
  simp only [gainOf, sub_self, mul_zero, Finset.sum_const_zero]

/-- Deferred min-marginals gain as the high branch costs do. -/
theorem gain_distribute (c c' outer : Costs (Vector R n)) :
    outer.gain gainOf c'.distribute c.distribute =
      Costs.gain gainOf ⟨outer.toBranches, outer.hi⟩ c' c := by
  simp only [Costs.gain, Branches.gain, Costs.distribute, gainOf_replicate, add_zero, add_assoc]
  congr 1
  simp only [gainOf, get_ofFn, Costs.highCost, ← Finset.sum_add_distrib]
  apply Finset.sum_congr rfl
  intro l _
  ring

/-- Differences gain on the high branch what they lose on the low one. -/
theorem gain_margins (c c' : Costs (Vector R n)) (same : c'.deferred = c.deferred)
    (outer : Vector R n) :
    gainOf outer c'.margins c.margins =
      Branches.gain gainOf ⟨outer.map (-·), outer⟩ c'.toBranches c.toBranches := by
  simp only [Branches.gain, gainOf, get_map, Costs.get_margins, Costs.highCost, same,
    ← Finset.sum_add_distrib]
  apply Finset.sum_congr rfl
  intro l _
  ring

/-- Perturbed costs gain what the costs do, and what the perturbation does, slot by slot. -/
theorem gainOf_perturbed (slotOf : Vector (Fin slots) n) (outer cost cost' : Vector R n)
    (change change' : Vector R slots) :
    gainOf outer (Vector.ofFn fun l => cost'.get l + change'.get (slotOf.get l))
        (Vector.ofFn fun l => cost.get l + change.get (slotOf.get l)) =
      gainOf (sumBy slotOf outer) change' change + gainOf outer cost' cost := by
  have gathered := sum_mul_get_key slotOf outer fun j => change'.get j - change.get j
  simp only [gainOf, get_ofFn, ← gathered, ← Finset.sum_add_distrib]
  apply Finset.sum_congr rfl
  intro l _
  ring

theorem gain_perturb (c c' : Costs (Vector R n)) (slotOf : Vector (Fin slots) n)
    (change change' : Branches (Vector R slots)) (outer : Branches (Vector R n)) :
    outer.gain gainOf (c'.perturb slotOf change').toBranches (c.perturb slotOf change).toBranches =
      (outer.map (sumBy slotOf)).gain gainOf change' change +
        outer.gain gainOf c'.toBranches c.toBranches := by
  simp only [Branches.gain, Branches.map, Costs.perturb, gainOf_perturbed]
  ring

end DualAscent
