import DualAscent.Proofs.Single
import DualAscent.Proofs.Supergradient

/-!
# Bounds, choices and gradients take the same branch

What a layer chooses, which of its costs enters a bound, and which of them receives the bound's
gradient is decided by one comparison each, of the low branch cost and of the high one after
something deferred was added.  In single precision they agree as long as the low branch cost is a
number.
-/

namespace DualAscent

namespace Costs

variable {n chains : Nat} {c : Costs (Vector Float32 n)}

theorem solution_of_takesHigh {l : Fin n} (high : c.takesHigh l = true) :
    c.solution.get l = 1 := by
  rw [get_solution, high]
  rfl

theorem solution_of_not_takesHigh {l : Fin n} (low : c.takesHigh l = false) :
    c.solution.get l = 0 := by
  rw [get_solution, low]
  rfl

/-- Cost of the branch that a layer chooses. -/
def chosenCost (c : Costs (Vector Float32 n)) (l : Fin n) : Float32 :=
  if c.solution.get l = 1 then c.hi.get l else c.lo.get l

section Bounds

variable (bare : ∀ l, c.deferred.get l = 0) (numeric : ∀ l, (c.lo.get l).isNaN = false)

include bare numeric

/-- To a sum that is not a negative zero, a layer adds the cost of the branch that it chooses. -/
theorem add_branchMinima {sum : Float32} (signed : sum ≠ -0) (l : Fin n) :
    sum + c.branchMinima.get l = sum + c.chosenCost l := by
  rw [get_branchMinima, Single.min_eq_ite (numeric l), chosenCost]
  show sum + (if c.takesHigh l then c.highCost l else c.lo.get l) = _
  by_cases high : c.takesHigh l = true
  · rw [if_pos high, if_pos (solution_of_takesHigh high), highCost, bare,
      Single.add_add_zero signed]
  · have low := solution_of_not_takesHigh (Bool.eq_false_of_not_eq_true high)
    have distinct : (0 : Float32) ≠ 1 := by decide +kernel
    rw [if_neg high, if_neg (low ▸ distinct)]

theorem foldl_add_branchMinima (layers : List (Fin n)) {sum : Float32} (signed : sum ≠ -0) :
    layers.foldl (fun sum l => sum + c.branchMinima.get l) sum =
      layers.foldl (fun sum l => sum + c.chosenCost l) sum := by
  induction layers generalizing sum with
  | nil => rfl
  | cons l layers ih =>
      rw [List.foldl_cons, List.foldl_cons, ← add_branchMinima bare numeric signed l]
      exact ih (Single.add_ne_neg_zero signed _)

/-- The bound of a chain adds up what its layers choose, in order. -/
theorem get_boundsBy_eq_foldl (chainOf : Vector (Fin chains) n) (chain : Fin chains) :
    (c.boundsBy chainOf).get chain =
      (positions chainOf chain).foldl (fun sum l => sum + c.chosenCost l) 0 := by
  have signed : (0 : Float32) ≠ -0 := by decide +kernel
  rw [boundsBy, get_sumBy_eq_foldl]
  exact foldl_add_branchMinima bare numeric _ signed

end Bounds

section Gradients

variable {chainOf : Vector (Fin chains) n} {outer : Vector Float32 chains} {l : Fin n}

/-- The gradient of a bound goes to the branch that a layer chooses, and nothing to the other
one. -/
theorem boundGradient_cases (finite : (outer.get (chainOf.get l)).isFinite = true) :
    (c.solution.get l = 1 ∧
      (c.boundGradient chainOf outer).hi.get l = outer.get (chainOf.get l) ∧
      (c.boundGradient chainOf outer).lo.get l = 0) ∨
    (c.solution.get l = 0 ∧
      ((c.boundGradient chainOf outer).lo.get l == outer.get (chainOf.get l)) = true ∧
      (c.boundGradient chainOf outer).hi.get l = 0) := by
  simp only [boundGradient, get_ofFn]
  by_cases high : c.takesHigh l = true
  · rw [if_pos high, if_pos high]
    exact .inl ⟨solution_of_takesHigh high, rfl, rfl⟩
  · rw [if_neg high, if_neg high]
    exact .inr ⟨solution_of_not_takesHigh (Bool.eq_false_of_not_eq_true high),
      Single.zero_add_beq finite, rfl⟩

theorem isFinite_boundGradient (finite : ∀ j, (outer.get j).isFinite = true) (l : Fin n) :
    ((c.boundGradient chainOf outer).lo.get l).isFinite = true ∧
      ((c.boundGradient chainOf outer).hi.get l).isFinite = true := by
  have zero : (0 : Float32).isFinite = true := by decide +kernel
  simp only [boundGradient, get_ofFn]
  by_cases high : c.takesHigh l = true
  · rw [if_pos high, if_pos high]
    exact ⟨zero, finite _⟩
  · rw [if_neg high, if_neg high]
    exact ⟨Single.isFinite_zero_add (finite _), zero⟩

end Gradients

end Costs

end DualAscent
