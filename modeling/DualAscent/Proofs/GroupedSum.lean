import DualAscent.GroupedSum
import Mathlib.Algebra.BigOperators.Fin
import Mathlib.Algebra.BigOperators.Ring.Finset

/-!
# Grouped sums in exact arithmetic

Where addition is associative and commutative, the order in which `sumBy` and `sumInOrder` add no
longer matters.  Grouping a family by its keys and reading the group's total back at every
position is then a self-adjoint operation.
-/

namespace DualAscent

variable {α : Type} {k n : Nat}

/-- The positions that carry a key, in order. -/
def positions (key : Vector (Fin k) n) (j : Fin k) : List (Fin n) :=
  (List.finRange n).filter fun i => key.get i = j

private theorem get_foldl_addAt [Add α] (key : Fin n → Fin k) (value : Fin n → α)
    (among : List (Fin n)) (sums : Vector α k) (j : Fin k) :
    (among.foldl (fun sums i => addAt sums (key i) (value i)) sums).get j =
      (among.filter fun i => key i = j).foldl (fun sum i => sum + value i) (sums.get j) := by
  induction among generalizing sums with
  | nil => rfl
  | cons i among ih =>
      rw [List.foldl_cons, ih]
      by_cases same : key i = j
      · subst same
        rw [get_addAt_self, List.filter_cons_of_pos (by simp), List.foldl_cons]
      · rw [get_addAt_of_ne sums (value i) same, List.filter_cons_of_neg (by simpa using same)]

/-- The entry of a key adds up what the positions that carry it hold, in order. -/
theorem get_sumBy_eq_foldl [Zero α] [Add α] (key : Vector (Fin k) n) (values : Vector α n)
    (j : Fin k) :
    (sumBy key values).get j =
      (positions key j).foldl (fun sum i => sum + values.get i) 0 := by
  have empty : (Vector.replicate k (0 : α)).get j = 0 := Vector.getElem_replicate j.isLt
  rw [sumBy, get_foldl_addAt key.get values.get, empty]
  rfl

section AddCommMonoid

variable [AddCommMonoid α]

/-- The entry of a key is the sum over the positions that carry it. -/
theorem get_sumBy (key : Vector (Fin k) n) (values : Vector α n) (j : Fin k) :
    (sumBy key values).get j = ∑ i with key.get i = j, values.get i := by
  have members : (positions key j).toFinset = Finset.univ.filter fun i => key.get i = j := by
    simp [positions, List.toFinset_filter]
  have nodup : (positions key j).Nodup := (List.nodup_finRange n).filter _
  rw [get_sumBy_eq_foldl, ← List.foldl_map, ← List.sum_eq_foldl, ← members,
    List.sum_toFinset _ nodup]

theorem foldl_add_eq_sum (values : Vector α n) (total : α) :
    values.foldl (· + ·) total = total + ∑ i, values.get i := by
  have ordered : ∀ (entries : List α) (total : α),
      entries.foldl (· + ·) total = total + entries.sum := by
    intro entries
    induction entries with
    | nil => simp
    | cons entry entries ih =>
        intro total
        rw [List.foldl_cons, ih, List.sum_cons, add_assoc]
  rw [← Vector.foldl_toList, ordered, Fin.sum_univ_def]
  congr 2
  apply List.ext_getElem
  · simp
  · intro i inside _
    simp [Vector.get]

theorem sumInOrder_eq_sum (values : Vector α n) : sumInOrder values = ∑ i, values.get i := by
  rw [sumInOrder, foldl_add_eq_sum, zero_add]

end AddCommMonoid

private theorem get_foldl_count (key : Fin n → Fin k) (passes : Fin n → Bool)
    (positions : List (Fin n)) (counts : Vector Nat k) (j : Fin k) :
    (positions.foldl (fun counts i => if passes i then addAt counts (key i) 1 else counts)
      counts).get j = counts.get j + positions.countP fun i => key i = j ∧ passes i := by
  induction positions generalizing counts with
  | nil => simp
  | cons i positions ih =>
      rw [List.foldl_cons, ih, List.countP_cons]
      by_cases counted : passes i = true
      · rw [if_pos counted]
        by_cases same : key i = j
        · subst same
          rw [get_addAt_self]
          simp only [counted, and_self, decide_true, if_true]
          omega
        · rw [get_addAt_of_ne counts 1 same]
          simp [same]
      · simp [counted]

/-- The entry of a key counts the positions that carry it and pass. -/
theorem get_countBy (key : Vector (Fin k) n) (passes : Fin n → Bool) (j : Fin k) :
    (countBy key passes).get j = (Finset.univ.filter fun i => key.get i = j ∧ passes i).card := by
  have empty : (Vector.replicate k 0).get j = 0 := Vector.getElem_replicate j.isLt
  rw [countBy, get_foldl_count key.get passes, empty, Nat.zero_add,
    ← (List.nodup_finRange n).card_eq_countP, List.toFinset_finRange]

/-- Reading a value per key at every position is transposed by adding up the positions of every
key. -/
theorem sum_mul_get_key [CommSemiring α] (key : Vector (Fin k) n) (values : Vector α n)
    (weight : Fin k → α) :
    ∑ i, values.get i * weight (key.get i) = ∑ j, (sumBy key values).get j * weight j := by
  rw [← Finset.sum_fiberwise Finset.univ key.get]
  apply Finset.sum_congr rfl
  intro j _
  rw [get_sumBy, Finset.sum_mul]
  apply Finset.sum_congr rfl
  intro i member
  rw [(Finset.mem_filter.mp member).2]

/-- Handing every position its group's total is self-adjoint. -/
theorem sum_mul_get_sumBy [CommSemiring α] (key : Vector (Fin k) n) (left right : Vector α n) :
    ∑ i, left.get i * (sumBy key right).get (key.get i) =
      ∑ i, (sumBy key left).get (key.get i) * right.get i := by
  rw [sum_mul_get_key key left (sumBy key right).get]
  simp_rw [mul_comm _ (right.get _)]
  rw [sum_mul_get_key key right (sumBy key left).get]
  exact Finset.sum_congr rfl fun j _ => mul_comm _ _

end DualAscent
