import DualAscent.Scalar
import Mathlib.Algebra.Order.Field.Rat
import Mathlib.Tactic.Linarith

/-!
# Exact arithmetic

The solvers compute with any numbers.  Here their operations are tied to those of an ordered
field, of which the rational numbers are the instance at hand.
-/

namespace DualAscent

/-- Arithmetic in which no result is infinite or undefined. -/
class AllFinite (α : Type) [Scalar α] : Prop where
  /-- Every number is finite. -/
  isFinite : ∀ a : α, Scalar.isFinite a = true

/-- Arithmetic without rounding in an ordered field. -/
class ExactScalar (K : Type) [Field K] [LinearOrder K] [Scalar K] : Prop extends AllFinite K where
  /-- Natural numbers are themselves. -/
  ofNat_eq : ∀ n : Nat, Scalar.ofNat n = (n : K)
  /-- Integers are themselves. -/
  ofInt_eq : ∀ n : Int, Scalar.ofInt n = (n : K)
  /-- Quotients are those of the field. -/
  div_eq : ∀ a b : K, Scalar.div a b = a / b
  /-- Strict comparison is that of the order. -/
  lt_iff : ∀ a b : K, Scalar.lt a b = true ↔ a < b
  /-- Comparison is that of the order. -/
  le_iff : ∀ a b : K, Scalar.le a b = true ↔ a ≤ b

namespace ExactScalar

variable {K : Type} [Field K] [LinearOrder K] [Scalar K] [ExactScalar K]

theorem min_eq (a b : K) : Scalar.min a b = min a b := by
  rw [Scalar.min]
  by_cases below : b < a
  · rw [if_pos ((lt_iff b a).mpr below), min_eq_right below.le]
  · have above : a ≤ b := le_of_not_gt below
    rw [if_neg (fun less => below ((lt_iff b a).mp less)), if_pos ((le_iff a a).mpr le_rfl),
      min_eq_left above]

theorem one_eq : (Scalar.one : K) = 1 := by
  rw [Scalar.one, ofNat_eq, Nat.cast_one]

theorem half_eq : (Scalar.half : K) = 1 / 2 := by
  rw [Scalar.half, div_eq, one_eq, ofNat_eq, Nat.cast_ofNat]

end ExactScalar

open Float.Model in
/-- The rational number that a double precision number stands for; zero if there is none. -/
def rationalOfDouble (x : Float) : ℚ :=
  match x.toModel.unpack with
  | .finite .positive mantissa exponent _ => mantissa * (2 : ℚ) ^ exponent
  | .finite .negative mantissa exponent _ => -(mantissa * (2 : ℚ) ^ exponent)
  | _ => 0

/-- Rational arithmetic is exact. -/
instance : Scalar ℚ where
  ofNat n := n
  ofInt n := n
  ofDouble := rationalOfDouble
  div := (· / ·)
  lt a b := a < b
  le a b := a ≤ b
  isFinite _ := true

instance : ExactScalar ℚ where
  isFinite _ := rfl
  ofNat_eq _ := rfl
  ofInt_eq _ := rfl
  div_eq _ _ := rfl
  lt_iff _ _ := decide_eq_true_iff
  le_iff _ _ := decide_eq_true_iff

end DualAscent
