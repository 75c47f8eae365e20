/-!
Half-open index ranges, and the slices of a flat array that they cut out.
-/

namespace DualAscent

/-- The indices from `start` up to but not including `stop`. -/
structure Span where
  /-- First index. -/
  start : Nat
  /-- Index just past the last one. -/
  stop : Nat
deriving DecidableEq

namespace Span

/-- Number of indices. -/
def length (s : Span) : Nat := s.stop - s.start

/-- The elements of a flat array at these indices. -/
def slice {β : Type} (s : Span) (values : Array β) : Array β := values.extract s.start s.stop

/-- A slice inside the array has one element per index. -/
theorem size_slice {β : Type} (s : Span) (values : Array β) (inside : s.stop ≤ values.size) :
    (s.slice values).size = s.length := by
  simp [slice, length, Nat.min_eq_left inside]

/-- Written with two dots between the ends. -/
def text (s : Span) : String := toString s.start ++ ".." ++ toString s.stop

/-- Consecutive ranges of the given lengths, the first one at `start`. -/
def consecutive (start : Nat) : List Nat → List Span
  | [] => []
  | n :: rest => ⟨start, start + n⟩ :: consecutive (start + n) rest

@[simp]
theorem length_consecutive (start : Nat) (lengths : List Nat) :
    (consecutive start lengths).length = lengths.length := by
  induction lengths generalizing start with
  | nil => rfl
  | cons n rest ih => simp [consecutive, ih]

/-- Where the last of several ranges ends; zero if there is none. -/
def finish (spans : List Span) : Nat := (spans.getLast?.map (·.stop)).getD 0

end Span

end DualAscent
