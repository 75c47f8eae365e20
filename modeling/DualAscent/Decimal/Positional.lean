import DualAscent.Decimal.Shortest

/-!
Positional text of a binary32: the digits of the shortest decimal that reads back, with a point
where one is needed and never an exponent.
-/

namespace DualAscent.Decimal

/-- The digits with the point in place: zeros fill up to the units on either side. -/
def Digits.positional (d : Digits) : String :=
  let text := toString d.digits
  if 0 ≤ d.exponent then text ++ String.ofList (List.replicate d.exponent.toNat '0')
  else
    let places := (-d.exponent).toNat
    let padded := List.replicate (places + 1 - text.length) '0' ++ text.toList
    let whole := padded.length - places
    String.ofList (padded.take whole ++ '.' :: padded.drop whole)

/-- Text of a positive finite magnitude, or of zero. -/
def magnitude (field fraction : Nat) : String :=
  match shortest? (.ofFields field fraction) with
  | some d => d.positional
  | none => "0"

/-- Text of a binary32: positional and shortest; a zero keeps its sign. -/
def text (x : Float32) : String :=
  let bits := x.toBits.toNat
  let field := (bits >>> 23) % 0x100
  let fraction := bits % 0x800000
  let sign := if bits >>> 31 = 0 then "" else "-"
  if field = 255 then
    if fraction = 0 then sign ++ "inf" else "NaN"
  else sign ++ magnitude field fraction

end DualAscent.Decimal
