import DualAscent.Proofs.Damping
import DualAscent.Proofs.Entries
import Mathlib.Algebra.BigOperators.Fin

/-!
# Pairing gradients with directions

A gradient is paired with a direction of the same shape by adding up the products of all entries.
-/

namespace DualAscent

variable {R : Type} [CommRing R] {n : Nat}

/-- Sum of the products of corresponding entries. -/
def dot (first second : Array R) : R :=
  (List.zipWith (· * ·) first.toList second.toList).sum

/-- Pairing of damping factors of the same kind. -/
def Damping.pair {τ : Type} (pairing : τ → τ → R) :
    Damping R τ → Damping R τ → R
  | shared gradient, shared direction => gradient * direction
  | perLayer gradient, perLayer direction => pairing gradient direction
  | _, _ => 0

/-- Pairing of costs. -/
def Costs.pair {τ : Type} (pairing : τ → τ → R) (gradient direction : Costs τ) : R :=
  pairing gradient.lo direction.lo + pairing gradient.hi direction.hi +
    pairing gradient.deferred direction.deferred

/-- Pairing of everything that a dual ascent depends on. -/
def Inputs.pair {τ : Type} (pairing : τ → τ → R) (gradient direction : Inputs R τ) : R :=
  gradient.costs.pair pairing direction.costs + pairing gradient.weights direction.weights +
    gradient.damping.pair pairing direction.damping

/-- Differences of corresponding entries. -/
def difference {R : Type} [Sub R] (later earlier : Array R) : Array R :=
  Array.zipWith (· - ·) later earlier

theorem difference_toArray (later earlier : Vector R n) :
    difference later.toArray earlier.toArray = (Vector.zipWith (· - ·) later earlier).toArray :=
  Vector.toArray_zipWith.symm

theorem dot_toArray (first second : Vector R n) :
    dot first.toArray second.toArray = ∑ l, first.get l * second.get l := by
  rw [dot, ← List.sum_ofFn]
  congr 1
  apply List.ext_getElem
  · simp
  · intro i inside _
    simp [Vector.get]

theorem dot_append {first second : Array R} (aligned : first.size = second.size)
    (more others : Array R) :
    dot (first ++ more) (second ++ others) = dot first second + dot more others := by
  rw [dot, Array.toList_append, Array.toList_append, List.zipWith_append aligned,
    List.sum_append]
  rfl

@[simp]
theorem dot_empty (second : Array R) : dot #[] second = 0 := rfl

end DualAscent
