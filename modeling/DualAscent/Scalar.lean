/-!
Numbers as the solvers need them. Ring operations are the ordinary classes `Add`, `Sub`, `Mul`,
`Neg` and `Zero`; `Scalar` adds what goes beyond a ring. It assumes no law, so that rounded
arithmetic is an instance just like exact arithmetic.
-/

namespace DualAscent

/-- Number operations beyond ring arithmetic. -/
class Scalar (α : Type) where
  /-- The number nearest to a natural number. -/
  ofNat : Nat → α
  /-- The number nearest to an integer. -/
  ofInt : Int → α
  /-- The number nearest to a double precision number. -/
  ofDouble : Float → α
  /-- Quotient. -/
  div : α → α → α
  /-- Strict comparison, false if an operand is not a number. -/
  lt : α → α → Bool
  /-- Comparison, false if an operand is not a number. -/
  le : α → α → Bool
  /-- Neither infinite nor an undefined result. -/
  isFinite : α → Bool

namespace Scalar

variable {α : Type} [Scalar α]

/-- The smaller operand; if one operand is not a number, the other one. -/
def min (a b : α) : α :=
  if lt b a then b else if le a a then a else b

/-- Absolute value. -/
def abs [Zero α] [Neg α] (a : α) : α := if lt a 0 then -a else a

/-- The number one. -/
def one : α := ofNat 1

/-- The number one half. -/
def half : α := div one (ofNat 2)

/-- One for `true`, zero for `false`. -/
def indicator [Zero α] (b : Bool) : α := if b then one else 0

end Scalar

open Float.Model in
/-- The single precision number nearest to a double precision number; one that is too large for
single precision becomes infinite. -/
def singleOfDouble (x : Float) : Float32 :=
  .ofModel <| .pack <|
    match x.toModel.unpack with
    | .finite sign mantissa exponent _ => UnpackedFloat.round .binary32 sign mantissa exponent
    | special => special

/-- Single precision: every operation is rounded to the nearest binary32. -/
instance : Scalar Float32 where
  ofNat := Float32.ofNat
  ofInt := Float32.ofInt
  ofDouble := singleOfDouble
  div := (· / ·)
  lt := Float32.lt
  le := Float32.le
  isFinite := Float32.isFinite

end DualAscent
