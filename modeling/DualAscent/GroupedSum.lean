/-!
Sums of values that share a key, and how many positions share one. Values are added in the order
of their positions, starting from zero, which fixes the result also where addition rounds.
-/

namespace DualAscent

variable {α : Type} {k n : Nat}

/-- Adds a value to the entry of a key. -/
def addAt [Add α] (sums : Vector α k) (key : Fin k) (value : α) : Vector α k :=
  sums.set key.val (sums.get key + value) key.isLt

/-- For every key the sum of its values. -/
def sumBy [Zero α] [Add α] (key : Vector (Fin k) n) (values : Vector α n) : Vector α k :=
  (List.finRange n).foldl (fun sums i => addAt sums (key.get i) (values.get i))
    (Vector.replicate k 0)

/-- For every key how many of its positions pass a test. -/
def countBy (key : Vector (Fin k) n) (passes : Fin n → Bool) : Vector Nat k :=
  (List.finRange n).foldl
    (fun counts i => if passes i then addAt counts (key.get i) 1 else counts)
    (Vector.replicate k 0)

/-- The sum of all values, in order. -/
def sumInOrder [Zero α] [Add α] (values : Vector α n) : α := values.foldl (· + ·) 0

theorem get_addAt_self [Add α] (sums : Vector α k) (key : Fin k) (value : α) :
    (addAt sums key value).get key = sums.get key + value :=
  Vector.getElem_set_self key.isLt

theorem get_addAt_of_ne [Add α] (sums : Vector α k) {key j : Fin k} (value : α) (h : key ≠ j) :
    (addAt sums key value).get j = sums.get j :=
  Vector.getElem_set_ne key.isLt j.isLt (Fin.val_ne_of_ne h)

end DualAscent
