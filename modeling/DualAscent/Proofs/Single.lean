import DualAscent.Scalar
import Mathlib

/-!
# Zeros in single precision

A sum is a negative zero only if it starts from one: where opposite summands cancel, what is left is
a positive zero, and a sum that is not zero is not rounded to zero, because its exponent is one that
single precision has.  So a running sum that starts from zero does not notice whether zero was added
to a summand.
-/

namespace DualAscent

namespace Single

open Float.Model UnpackedFloat

/-- A magnitude that is not zero, with an exponent that single precision has. -/
structure InRange (mantissa : Nat) (exponent : Int) : Prop where
  positive : 0 < mantissa
  above : -149 ≤ exponent

/-- A magnitude with the digits of single precision. -/
structure Fits (mantissa : Nat) (exponent : Int) : Prop where
  above : -149 ≤ exponent
  short : mantissa < 2 ^ 24

theorem mantissa_shiftRight (em : ExtendedMantissa) (n : Nat) :
    (em >>> n).mantissa = em.mantissa / 2 ^ n := by
  show (n.repeat ExtendedMantissa.shiftRightOne em).mantissa = _
  induction n with
  | zero => exact (Nat.div_one _).symm
  | succ n ih =>
      show (n.repeat ExtendedMantissa.shiftRightOne em).mantissa / 2 = _
      rw [ih, Nat.div_div_eq_div_mul, ← Nat.pow_succ]

theorem mantissa_ofMantissaAndAccuracy (mantissa : Nat) (accuracy : Accuracy) :
    (ExtendedMantissa.ofMantissaAndAccuracy mantissa accuracy).mantissa = mantissa := by
  cases accuracy with
  | exact => rfl
  | inexact order => cases order <;> rfl

theorem le_roundedMantissa (em : ExtendedMantissa) : em.mantissa ≤ em.roundedMantissa := by
  rw [ExtendedMantissa.roundedMantissa]
  cases em.accuracy with
  | exact => exact Nat.le_refl _
  | inexact order =>
      cases order with
      | lt => exact Nat.le_refl _
      | eq => exact Nat.le_add_right _ _
      | gt => exact Nat.le_succ _

/-- Dropping the digits that do not fit keeps the leading one. -/
theorem inRange_shiftToTargetExponent {mantissa : Nat} {exponent : Int} (accuracy : Accuracy)
    (range : InRange mantissa exponent) :
    let shifted := shiftToTargetExponent .binary32 mantissa exponent accuracy
    InRange shifted.1.mantissa shifted.2 ∧ shifted.1.mantissa < 2 ^ 24 := by
  obtain ⟨positive, above⟩ := range
  let target : Int := max (totalExponent mantissa exponent - 24) (-149)
  let dropped := (target - exponent).toNat
  have few : dropped ≤ mantissa.log2 := by
    simp only [dropped, target, totalExponent]
    omega
  have enough : mantissa.log2 + 1 ≤ dropped + 24 := by
    simp only [dropped, target, totalExponent]
    omega
  have mantissa_eq : (shiftToTargetExponent .binary32 mantissa exponent accuracy).1.mantissa =
      mantissa / 2 ^ dropped := by
    refine (mantissa_shiftRight _ dropped).trans ?_
    rw [mantissa_ofMantissaAndAccuracy]
  have kept : 0 < mantissa / 2 ^ dropped :=
    Nat.div_pos ((Nat.pow_le_pow_right Nat.two_pos few).trans (Nat.log2_self_le positive.ne'))
      (Nat.two_pow_pos dropped)
  have short : mantissa / 2 ^ dropped < 2 ^ 24 := by
    refine Nat.div_lt_of_lt_mul (Nat.lt_log2_self.trans_le ?_)
    rw [← Nat.pow_add]
    exact Nat.pow_le_pow_right Nat.two_pos enough
  rw [← mantissa_eq] at kept short
  exact ⟨⟨kept, above.trans (Int.le_add_of_nonneg_right (Int.natCast_nonneg dropped))⟩, short⟩

/-- A magnitude in range is rounded to one that fits. -/
theorem exists_round_eq_finite (sign : Sign) {mantissa : Nat} {exponent : Int}
    (range : InRange mantissa exponent) :
    ∃ rounded exponent' positive, Fits rounded exponent' ∧
      UnpackedFloat.round .binary32 sign mantissa exponent =
        .finite sign rounded exponent' positive := by
  let target : Int := max (totalExponent mantissa exponent - 24) (-149)
  let added := (exponent - target).toNat
  have padded : InRange (mantissa <<< added) (exponent - added) := by
    constructor
    · rw [Nat.shiftLeft_eq]
      exact Nat.mul_pos range.positive (Nat.two_pow_pos added)
    · have := range.above
      simp only [added, target]
      omega
  let first := shiftToTargetExponent .binary32 (mantissa <<< added) (exponent - added) .exact
  have shifted : InRange first.1.mantissa first.2 :=
    (inRange_shiftToTargetExponent .exact padded).1
  have nudged : InRange first.1.roundedMantissa first.2 :=
    ⟨shifted.positive.trans_le (le_roundedMantissa _), shifted.above⟩
  -- a carry into one more digit is shifted out again
  obtain ⟨final, short⟩ := inRange_shiftToTargetExponent .exact nudged
  exact ⟨_, _, final.positive, ⟨final.above, short⟩, dif_neg final.positive.ne'⟩

/-- The magnitude, if there is one, has the digits of single precision. -/
def Representable : UnpackedFloat → Prop
  | .finite _ mantissa exponent _ => Fits mantissa exponent
  | _ => True

theorem representable_unpack (bits : BitVec Format.binary32.numBits) :
    Representable (UnpackedFloat.unpack .binary32 bits) := by
  simp only [UnpackedFloat.unpack]
  split
  · split <;> trivial
  · split
    · next subnormal =>
        split
        · trivial
        · refine ⟨?_, (unpackMantissa bits).isLt.trans (by decide)⟩
          rw [subnormal]
          decide
    · next normal =>
        refine ⟨?_, (1#1 ++ unpackMantissa bits).isLt⟩
        have positive : 0 < (unpackExponent bits).toNat :=
          Nat.pos_of_ne_zero fun zero => normal (BitVec.eq_of_toNat_eq zero)
        show (-149 : Int) ≤ (unpackExponent bits).toNat - ((127 : Nat) + (23 : Nat))
        omega

theorem packComponents_eq_packedZero {sign sign' : Sign} {exponent : BitVec 8}
    {mantissa : BitVec 23}
    (same : packComponents .binary32 sign exponent mantissa = packedZero .binary32 sign') :
    exponent = 0 ∧ mantissa = 0 := by
  have exponents := congrArg (@unpackExponent .binary32) same
  have mantissas := congrArg (@unpackMantissa .binary32) same
  rw [packedZero] at exponents mantissas
  rw [unpackExponent_packComponents, unpackExponent_packComponents] at exponents
  rw [unpackMantissa_packComponents, unpackMantissa_packComponents] at mantissas
  exact ⟨exponents, mantissas⟩

/-- A magnitude that fits is not packed as a zero. -/
theorem pack_finite_ne_packedZero {mantissa : Nat} {exponent : Int} (fits : Fits mantissa exponent)
    (sign sign' : Sign) (positive : 0 < mantissa) :
    UnpackedFloat.pack .binary32 (.finite sign mantissa exponent positive) ≠
      packedZero .binary32 sign' := by
  intro same
  have above := fits.above
  simp only [UnpackedFloat.pack] at same
  split at same
  · exact absurd (packComponents_eq_packedZero same).1 (by decide)
  · next finite =>
    split at same
    · have zero : (exponent + (127 : Nat) + (23 : Nat)).toNat % 2 ^ 8 = 0 :=
        congrArg BitVec.toNat (packComponents_eq_packedZero same).1
      have few : ¬2 ^ 8 ≤ (exponent + (127 : Nat) + (23 : Nat)).toNat + 1 := finite
      omega
    · next subnormal =>
        have zero : mantissa % 2 ^ 23 = 0 :=
          congrArg BitVec.toNat (packComponents_eq_packedZero same).2
        have log_lt := (Nat.log2_lt positive.ne').mpr fits.short
        have log_ne : mantissa.log2 + 1 ≠ 24 := subnormal
        have below := (Nat.log2_lt positive.ne').mp (show mantissa.log2 < 23 by omega)
        exact positive.ne' ((Nat.mod_eq_of_lt below).symm.trans zero)

theorem pack_ne_packedZero {x : UnpackedFloat} (fits : Representable x)
    (signed : x ≠ .zero .negative) :
    UnpackedFloat.pack .binary32 x ≠ packedZero .binary32 .negative := by
  cases x with
  | notANumber => decide
  | infinity sign => cases sign <;> decide
  | zero sign =>
      cases sign with
      | positive => decide
      | negative => exact absurd rfl signed
  | finite sign mantissa exponent positive =>
      exact pack_finite_ne_packedZero fits sign .negative positive

section Unpacked

variable {x y : UnpackedFloat}

theorem unpacked_add_neg_zero (x : UnpackedFloat) :
    UnpackedFloat.add .binary32 x (.zero .negative) = x := by
  cases x with
  | zero sign => cases sign <;> rfl
  | _ => rfl

theorem unpacked_add_zero (signed : x ≠ .zero .negative) :
    UnpackedFloat.add .binary32 x (.zero .positive) = x := by
  cases x with
  | zero sign =>
      cases sign with
      | positive => rfl
      | negative => exact absurd rfl signed
  | _ => rfl

theorem unpacked_zero_add (signed : x ≠ .zero .negative) :
    UnpackedFloat.add .binary32 (.zero .positive) x = x := by
  cases x with
  | zero sign =>
      cases sign with
      | positive => rfl
      | negative => exact absurd rfl signed
  | _ => rfl

/-- What cancels leaves a positive zero, and nothing else is rounded to zero. -/
theorem representable_normalize {exponent : Int} (above : -149 ≤ exponent) (mantissa : Int) :
    Representable (UnpackedFloat.normalize .binary32 mantissa exponent .positive) ∧
      UnpackedFloat.normalize .binary32 mantissa exponent .positive ≠ .zero .negative := by
  rcases lt_trichotomy mantissa 0 with negative | rfl | positive
  · have range : InRange (-mantissa).toNat exponent := ⟨by omega, above⟩
    obtain ⟨_, _, _, fits, rounded⟩ := exists_round_eq_finite .negative range
    rw [UnpackedFloat.normalize, Int.compare_eq_lt.mpr negative]
    dsimp only
    rw [rounded]
    exact ⟨fits, nofun⟩
  · exact ⟨trivial, nofun⟩
  · have range : InRange mantissa.toNat exponent := ⟨by omega, above⟩
    obtain ⟨_, _, _, fits, rounded⟩ := exists_round_eq_finite .positive range
    rw [UnpackedFloat.normalize, Int.compare_eq_gt.mpr positive]
    dsimp only
    rw [rounded]
    exact ⟨fits, nofun⟩

theorem representable_add (first : Representable x) (second : Representable y)
    (signed : x ≠ .zero .negative) :
    Representable (UnpackedFloat.add .binary32 x y) ∧
      UnpackedFloat.add .binary32 x y ≠ .zero .negative := by
  cases x with
  | notANumber => cases y <;> exact ⟨trivial, nofun⟩
  | infinity sign =>
      cases y with
      | infinity sign' => cases sign <;> cases sign' <;> exact ⟨trivial, nofun⟩
      | _ => exact ⟨trivial, nofun⟩
  | zero sign =>
      cases sign with
      | negative => exact absurd rfl signed
      | positive =>
          cases y with
          | zero sign' => cases sign' <;> exact ⟨trivial, nofun⟩
          | finite => exact ⟨second, nofun⟩
          | _ => exact ⟨trivial, nofun⟩
  | finite sign mantissa exponent positive =>
      cases y with
      | zero => exact ⟨first, nofun⟩
      | finite sign' mantissa' exponent' positive' =>
          exact representable_normalize (le_min first.above second.above) _
      | _ => exact ⟨trivial, nofun⟩

end Unpacked

variable {x : Float32}

theorem ofModel_pack_unpack (x : Float32) : Float32.ofModel (.pack x.toModel.unpack) = x :=
  Float32.toBits_inj.mp (UInt32.toBitVec_inj.mp (pack_unpack_of_valid x.toModel.valid))

theorem eq_neg_zero_iff : x = -0 ↔ x.toModel.unpack = .zero .negative := by
  rw [← Float32.toBits_inj, ← UInt32.toBitVec_inj]
  exact (unpack_eq_zero_iff_of_valid x.toModel.valid).symm

theorem unpack_zero : (0 : Float32).toModel.unpack = .zero .positive := unpack_packedZero

theorem add_neg_zero (x : Float32) : x + -0 = x := by
  show Float32.ofModel (.pack (UnpackedFloat.add .binary32 x.toModel.unpack _)) = x
  rw [eq_neg_zero_iff.mp rfl, unpacked_add_neg_zero, ofModel_pack_unpack]

theorem add_zero_of_ne (signed : x ≠ -0) : x + 0 = x := by
  show Float32.ofModel (.pack (UnpackedFloat.add .binary32 x.toModel.unpack _)) = x
  rw [unpack_zero, unpacked_add_zero (mt eq_neg_zero_iff.mpr signed), ofModel_pack_unpack]

theorem zero_add_of_ne (signed : x ≠ -0) : 0 + x = x := by
  show Float32.ofModel (.pack (UnpackedFloat.add .binary32 _ x.toModel.unpack)) = x
  rw [unpack_zero, unpacked_zero_add (mt eq_neg_zero_iff.mpr signed), ofModel_pack_unpack]

/-- A sum is a negative zero only if it starts from one. -/
theorem add_ne_neg_zero (signed : x ≠ -0) (y : Float32) : x + y ≠ -0 := by
  obtain ⟨fits, sum_signed⟩ := representable_add
    (representable_unpack x.toModel.toBits.toBitVec)
    (representable_unpack y.toModel.toBits.toBitVec) (mt eq_neg_zero_iff.mpr signed)
  intro same
  exact pack_ne_packedZero fits sum_signed
    (congrArg (fun sum : Float32 => sum.toModel.toBits.toBitVec) same)

/-- A sum that is not a negative zero does not notice whether zero was added to a summand. -/
theorem add_add_zero (signed : x ≠ -0) (y : Float32) : x + (y + 0) = x + y := by
  by_cases zero : y = -0
  · have cleared : (-0 : Float32) + 0 = 0 := by decide +kernel
    rw [zero, cleared, add_neg_zero, add_zero_of_ne signed]
  · rw [add_zero_of_ne zero]

theorem ne_nan_of_isFinite (finite : x.isFinite = true) : x ≠ .nan := by
  rintro rfl
  exact absurd finite (by decide +kernel)

/-- Zero added to a finite number changes at most the sign of a zero. -/
theorem zero_add_beq (finite : x.isFinite = true) : (0 + x == x) = true := by
  by_cases zero : x = -0
  · rw [zero]
    decide +kernel
  · rw [zero_add_of_ne zero]
    exact Float32.beq_self_iff.mpr (ne_nan_of_isFinite finite)

theorem isFinite_zero_add (finite : x.isFinite = true) : (0 + x).isFinite = true := by
  by_cases zero : x = -0
  · rw [zero]
    decide +kernel
  · rwa [zero_add_of_ne zero]

theorem le_self (number : x.isNaN = false) : x.le x = true := by
  rw [Float32.isNaN_eq_decide_eq_nan, decide_eq_false_iff_not] at number
  have compared : x.toModel.unpack.compare x.toModel.unpack = some .eq :=
    beq_iff_eq.mp (Float32.beq_self_iff.mpr number)
  refine decide_eq_true ?_
  show (x.toModel.unpack.compare x.toModel.unpack).any (·.isLE) = true
  rw [compared]
  rfl

/-- The smaller one of a number and anything else. -/
theorem min_eq_ite (number : x.isNaN = false) (y : Float32) :
    Scalar.min x y = if Scalar.lt y x then y else x := by
  rw [Scalar.min]
  split
  · rfl
  · exact if_pos (le_self number)

end Single

end DualAscent
