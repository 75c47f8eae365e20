import DualAscent.Proofs.Entries
import DualAscent.Segment.Span

/-!
# Flat arrays of a known size

Operations check the sizes of flat arrays once; from then on an array of the right size is as good
as a family of that length.
-/

namespace DualAscent

variable {α : Type} {n : Nat}

/-- Both arrays have this size. -/
structure Branches.Sized (n : Nat) (branches : Branches (Array α)) : Prop where
  lo : branches.lo.size = n
  hi : branches.hi.size = n

/-- All arrays have this size. -/
structure Costs.Sized (n : Nat) (costs : Costs (Array α)) : Prop extends
    Branches.Sized n costs.toBranches where
  deferred : costs.deferred.size = n

/-- Factors per layer have this size. -/
def Damping.Sized (n : Nat) : Damping α (Array α) → Prop
  | shared _ => True
  | perLayer factors => factors.size = n

/-- All arrays have this size. -/
structure Inputs.Sized (n : Nat) (inputs : Inputs α (Array α)) : Prop where
  costs : inputs.costs.Sized n
  weights : inputs.weights.size = n
  damping : inputs.damping.Sized n

/-- The arrays of a summary have these sizes. -/
structure Trend.Sized (room : Trend Nat) (trend : Trend (Array α)) : Prop where
  average : trend.average.size = room.average
  first : trend.first.size = room.first
  second : trend.second.size = room.second

theorem Costs.sized_toArray (costs : Costs (Vector α n)) : (costs.map Vector.toArray).Sized n :=
  ⟨⟨costs.lo.size_toArray, costs.hi.size_toArray⟩, costs.deferred.size_toArray⟩

theorem Inputs.sized_toArray (inputs : Inputs α (Vector α n)) :
    (inputs.map Vector.toArray).Sized n := by
  refine ⟨inputs.costs.sized_toArray, inputs.weights.size_toArray, ?_⟩
  show (inputs.damping.map Vector.toArray).Sized n
  cases inputs.damping with
  | shared value => trivial
  | perLayer factors => exact factors.size_toArray

theorem Branches.Sized.slice {branches : Branches (Array α)} (sized : branches.Sized n)
    {span : Span} (inside : span.stop ≤ n) :
    Branches.Sized span.length ⟨span.slice branches.lo, span.slice branches.hi⟩ :=
  ⟨span.size_slice _ (sized.lo ▸ inside), span.size_slice _ (sized.hi ▸ inside)⟩

theorem Costs.Sized.slice {costs : Costs (Array α)} (sized : costs.Sized n) {span : Span}
    (inside : span.stop ≤ n) : (costs.map span.slice).Sized span.length :=
  ⟨sized.toSized.slice inside, span.size_slice _ (sized.deferred ▸ inside)⟩

theorem Damping.Sized.slice {damping : Damping α (Array α)} (sized : damping.Sized n)
    {span : Span} (inside : span.stop ≤ n) : (damping.map span.slice).Sized span.length := by
  cases damping with
  | shared value => trivial
  | perLayer factors => exact span.size_slice _ (Nat.le_trans inside (Nat.le_of_eq (Eq.symm sized)))

theorem Inputs.Sized.slice {inputs : Inputs α (Array α)} (sized : inputs.Sized n) {span : Span}
    (inside : span.stop ≤ n) : (inputs.map span.slice).Sized span.length :=
  ⟨sized.costs.slice inside, span.size_slice _ (sized.weights ▸ inside),
    sized.damping.slice inside⟩

theorem Span.slice_all {values : Array α} (sized : values.size = n) :
    (⟨0, n⟩ : Span).slice values = values := by
  subst sized
  exact Array.extract_size

theorem Costs.Sized.slice_all {costs : Costs (Array α)} (sized : costs.Sized n) :
    costs.map (⟨0, n⟩ : Span).slice = costs := by
  simp only [Costs.map, Span.slice_all sized.lo, Span.slice_all sized.hi,
    Span.slice_all sized.deferred]

theorem Damping.Sized.slice_all {damping : Damping α (Array α)} (sized : damping.Sized n) :
    damping.map (⟨0, n⟩ : Span).slice = damping := by
  cases damping with
  | shared value => rfl
  | perLayer factors => exact congrArg perLayer (Span.slice_all sized)

theorem Inputs.Sized.slice_all {inputs : Inputs α (Array α)} (sized : inputs.Sized n) :
    inputs.map (⟨0, n⟩ : Span).slice = inputs := by
  simp only [Inputs.map, sized.costs.slice_all, Span.slice_all sized.weights,
    sized.damping.slice_all]

section Fit

variable [Zero α]

/-- The first entries of an array, and zeros after its end. -/
def fit (n : Nat) (values : Array α) : Vector α n := Vector.ofFn fun l => values.getD l 0

theorem toArray_fit {values : Array α} (sized : values.size = n) :
    (fit n values).toArray = values := by
  subst sized
  apply Array.ext
  · simp
  · intro i _ inside
    simp [fit]

@[simp]
theorem fit_toArray (values : Vector α n) : fit n values.toArray = values :=
  Vector.toArray_inj.mp (toArray_fit values.size_toArray)

theorem Costs.map_fit_toArray (costs : Costs (Vector α n)) :
    (costs.map Vector.toArray).map (fit n) = costs := by
  simp only [Costs.map, fit_toArray]

theorem Costs.Sized.map_fit {costs : Costs (Array α)} (sized : costs.Sized n) :
    (costs.map (fit n)).map Vector.toArray = costs := by
  simp only [Costs.map, toArray_fit sized.lo, toArray_fit sized.hi, toArray_fit sized.deferred]

theorem Damping.Sized.map_fit {damping : Damping α (Array α)} (sized : damping.Sized n) :
    (damping.map (fit n)).map Vector.toArray = damping := by
  cases damping with
  | shared value => rfl
  | perLayer factors => exact congrArg perLayer (toArray_fit sized)

theorem Inputs.Sized.map_fit {inputs : Inputs α (Array α)} (sized : inputs.Sized n) :
    (inputs.map (fit n)).map Vector.toArray = inputs := by
  simp only [Inputs.map, sized.costs.map_fit, toArray_fit sized.weights, sized.damping.map_fit]

end Fit

end DualAscent
