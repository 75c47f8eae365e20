import DualAscent.Proofs.Entries
import DualAscent.Proofs.Finite

/-!
# What is not finite stays so

In single precision no sum or difference is finite if one of its operands is infinite or undefined,
opposite infinities included: what cancels them is not a number either.  A finite result is
therefore evidence for finite operands.
-/

namespace DualAscent

/-- Arithmetic in which finite sums and differences have finite operands. -/
class Contagious (α : Type) [Scalar α] [Add α] [Sub α] : Prop where
  /-- A finite sum has finite summands. -/
  of_add : ∀ a b : α, Scalar.isFinite (a + b) = true →
    Scalar.isFinite a = true ∧ Scalar.isFinite b = true
  /-- The minuend of a finite difference is finite. -/
  of_sub : ∀ a b : α, Scalar.isFinite (a - b) = true → Scalar.isFinite a = true
  /-- What rounds to a finite number is finite. -/
  of_ofDouble : ∀ x : Float, Scalar.isFinite (Scalar.ofDouble x : α) = true → x.isFinite = true

section Single

open Float.Model

theorem isFinite_of_isFinite_add {format : Format} {x y : UnpackedFloat}
    (finite : (UnpackedFloat.add format x y).isFinite = true) :
    x.isFinite = true ∧ y.isFinite = true := by
  cases x with
  | notANumber => cases y <;> cases finite
  | infinity sign =>
      cases y with
      | infinity sign' => cases sign <;> cases sign' <;> cases finite
      | _ => cases finite
  | zero sign =>
      cases y with
      | notANumber => cases finite
      | infinity => cases finite
      | _ => exact ⟨rfl, rfl⟩
  | finite =>
      cases y with
      | notANumber => cases finite
      | infinity => cases finite
      | _ => exact ⟨rfl, rfl⟩

theorem isFinite_of_isFinite_sub {format : Format} {x y : UnpackedFloat}
    (finite : (UnpackedFloat.sub format x y).isFinite = true) : x.isFinite = true := by
  cases x with
  | notANumber => cases y <;> cases finite
  | infinity sign =>
      cases y with
      | infinity sign' => cases sign <;> cases sign' <;> cases finite
      | _ => cases finite
  | zero sign => rfl
  | finite => rfl

/-- Packing turns neither infinities nor undefined results into numbers. -/
theorem isFinite_of_isFinite_pack {x : UnpackedFloat}
    (finite : (Float32.Model.pack x).isFinite = true) : x.isFinite = true := by
  cases x with
  | notANumber => revert finite; decide +kernel
  | infinity sign => cases sign <;> revert finite <;> decide +kernel
  | zero sign => rfl
  | finite => rfl

instance : Contagious Float32 where
  of_add _ _ finite := isFinite_of_isFinite_add (isFinite_of_isFinite_pack finite)
  of_sub _ _ finite := isFinite_of_isFinite_sub (isFinite_of_isFinite_pack finite)
  of_ofDouble x finite := by
    have rounded := isFinite_of_isFinite_pack finite
    show x.toModel.unpack.isFinite = true
    cases number : x.toModel.unpack with
    | zero => rfl
    | finite => rfl
    | infinity sign =>
        rw [number] at rounded
        exact rounded
    | notANumber =>
        rw [number] at rounded
        exact rounded

end Single

section Containers

variable {α : Type} [Scalar α]

theorem finiteEntries_toArray_iff {n : Nat} {values : Vector α n} :
    FiniteEntries values.toArray ↔ ∀ l, Scalar.isFinite (values.get l) = true := by
  constructor
  · intro finite l
    exact finite _ (Array.getElem_mem _)
  · intro finite value inside
    obtain ⟨l, below, rfl⟩ := Array.mem_iff_getElem.mp inside
    exact finite ⟨l, values.size_toArray ▸ below⟩

theorem finiteEntries_joined_iff {segments : List (Array α)} :
    FiniteEntries (joined segments) ↔ ∀ segment ∈ segments, FiniteEntries segment := by
  induction segments with
  | nil => simp [FiniteEntries, joined]
  | cons segment segments ih =>
      rw [List.forall_mem_cons, ← ih]
      simp only [FiniteEntries, joined, List.foldr_cons, Array.mem_append, or_imp, forall_and]

/-- A buffer holds only finite numbers if they are finite once rounded. -/
theorem Buffer.nonFinite_eq_zero [Add α] [Sub α] [Contagious α] {b : Buffer α}
    (finite : FiniteEntries b.elements) : b.nonFinite = 0 := by
  obtain ⟨storage, stride, positive⟩ := b
  cases storage with
  | single values =>
      refine Array.countP_eq_zero.mpr fun value inside => ?_
      simpa using finite value inside
  | double values =>
      refine Array.countP_eq_zero.mpr fun value inside => ?_
      simpa using Contagious.of_ofDouble value (finite _ (Array.mem_map_of_mem inside))
  | int values => rfl

/-- All branch costs are finite. -/
structure Branches.Finite (branches : Branches (Array α)) : Prop where
  lo : FiniteEntries branches.lo
  hi : FiniteEntries branches.hi

/-- All working costs are finite. -/
structure Costs.Finite (costs : Costs (Array α)) : Prop extends
    Branches.Finite costs.toBranches where
  deferred : FiniteEntries costs.deferred

theorem Costs.finite_toArray_iff {n : Nat} {costs : Costs (Vector α n)} :
    (costs.map Vector.toArray).Finite ↔ ∀ l, Scalar.isFinite (costs.lo.get l) = true ∧
      Scalar.isFinite (costs.hi.get l) = true ∧ Scalar.isFinite (costs.deferred.get l) = true := by
  rw [forall_and, forall_and]
  simp only [← finiteEntries_toArray_iff]
  exact ⟨fun finite => ⟨finite.lo, finite.hi, finite.deferred⟩,
    fun ⟨lo, hi, deferred⟩ => ⟨⟨lo, hi⟩, deferred⟩⟩

end Containers

end DualAscent
