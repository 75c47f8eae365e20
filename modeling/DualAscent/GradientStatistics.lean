import DualAscent.Scalar

/-!
Summary statistics of a gradient segment, over its finite entries.
-/

namespace DualAscent

/-- A summary of one gradient segment. -/
structure GradientStatistics where
  /-- Mean of the finite entries. -/
  mean : Float32
  /-- Unbiased sample deviation of the finite entries. -/
  deviation : Float32
  /-- Smallest finite entry. -/
  min : Float32
  /-- Largest finite entry. -/
  max : Float32
  /-- Number of infinite or undefined entries. -/
  nonFinite : Nat
  /-- Number of all entries. -/
  length : Nat

namespace GradientStatistics

/-- In-order sum. -/
def sum (values : List Float32) : Float32 := values.foldl (· + ·) 0

/-- The smaller of two finite numbers. -/
def smaller (a b : Float32) : Float32 := if b < a then b else a

/-- The larger of two finite numbers. -/
def larger (a b : Float32) : Float32 := if a < b then b else a

/-- Mean of some numbers. -/
def meanOf (values : List Float32) : Float32 := sum values / Float32.ofNat values.length

/-- Sample deviation from a mean; zero if there are fewer than two numbers. -/
def deviationFrom (mean : Float32) (values : List Float32) : Float32 :=
  if values.length ≤ 1 then 0
  else
    (sum (values.map fun x => (x - mean) * (x - mean))
      / Float32.ofNat (values.length - 1)).sqrt

/-- The summary of a segment; its statistics are zero if no entry is finite. -/
def ofValues (values : Array Float32) : GradientStatistics :=
  let finite := values.toList.filter (·.isFinite)
  let nonFinite := values.size - finite.length
  match finite with
  | [] => ⟨0, 0, 0, 0, nonFinite, values.size⟩
  | x :: rest =>
    let mean := meanOf finite
    { mean
      deviation := deviationFrom mean finite
      min := rest.foldl smaller x
      max := rest.foldl larger x
      nonFinite
      length := values.size }

/-- Magnitude above which an entry counts as large. -/
def largeMagnitude : Float32 := 1000

/-- Some finite entry is large. -/
def isLarge (stats : GradientStatistics) : Bool :=
  largeMagnitude < stats.max || stats.min < -largeMagnitude

end GradientStatistics

end DualAscent
