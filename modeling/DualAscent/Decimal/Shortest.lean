/-!
The shortest decimal that reads back as a given binary32.

A positive binary32 is `significand * 2 ^ exponent`, and the reals that round to it form an
interval around it. Among the decimal grids `10 ^ p`, taken from the coarsest, the first with a
point inside that interval gives the fewest digits; on that grid only the two neighbours of the
number matter.
-/

namespace DualAscent.Decimal

/-- A positive binary32 taken apart. -/
structure Dyadic where
  /-- Integral significand. -/
  significand : Nat
  /-- Power of two that scales the significand. -/
  exponent : Int
  /-- The next smaller binary32 is only half a unit of this one away. -/
  isNarrow : Bool

namespace Dyadic

/-- The magnitude with these exponent and fraction bits. -/
def ofFields (field fraction : Nat) : Dyadic :=
  if field = 0 then ⟨fraction, -149, false⟩
  else ⟨fraction + 0x800000, (field : Int) - 150, fraction = 0 && 1 < field⟩

/-- Quarter units from the lower end of the rounding interval to the number. -/
def reach (x : Dyadic) : Nat := if x.isNarrow then 1 else 2

/-- Both ends of the rounding interval round to the number if its significand is even. -/
def includesEnds (x : Dyadic) : Bool := x.significand % 2 = 0

end Dyadic

/-- A positive decimal `digits * 10 ^ exponent`. -/
structure Digits where
  /-- Integral significand. -/
  digits : Nat
  /-- Power of ten that scales the significand. -/
  exponent : Int
deriving DecidableEq

/-- A quarter unit of a dyadic number as a fraction `quarter / unit` of the grid `10 ^ p`. -/
structure Scale where
  /-- Numerator: the quarter unit. -/
  quarter : Nat
  /-- Denominator: the grid step. -/
  unit : Nat

/-- The quarter unit `2 ^ (q - 2)` over the grid step `10 ^ p`, without negative powers. -/
def scale (q p : Int) : Scale where
  quarter := Nat.pow 2 (q - 2).toNat * Nat.pow 10 (-p).toNat
  unit := Nat.pow 2 (2 - q).toNat * Nat.pow 10 p.toNat

/-- The point `point * 10 ^ p` lies in the rounding interval. -/
def admits (x : Dyadic) (p : Int) (point : Nat) : Bool :=
  let s := scale x.exponent p
  let low := (4 * x.significand - x.reach) * s.quarter
  let high := (4 * x.significand + 2) * s.quarter
  let here := point * s.unit
  if x.includesEnds then low ≤ here && here ≤ high else low < here && here < high

/-- The nearest point of the grid `10 ^ p` inside the rounding interval, a tie going up. -/
def nearest? (x : Dyadic) (p : Int) : Option Digits :=
  let s := scale x.exponent p
  let value := 4 * x.significand * s.quarter
  let below := value / s.unit
  let closerBelow := decide (2 * (value % s.unit) < s.unit)
  match admits x p below, admits x p (below + 1) with
  | true, true => some ⟨if closerBelow then below else below + 1, p⟩
  | true, false => some ⟨below, p⟩
  | false, true => some ⟨below + 1, p⟩
  | false, false => none

/-- The grids on which a binary32 can have its shortest decimal, from the coarsest. -/
def grids : List Int := (List.range 96).map fun i : Nat => 39 - (i : Int)

/-- The shortest decimal that reads back as the number, and the nearest of those; zero has none. -/
def shortest? (x : Dyadic) : Option Digits :=
  if x.significand = 0 then none else grids.findSome? (nearest? x)

end DualAscent.Decimal
