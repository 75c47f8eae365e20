import DualAscent.Proofs.Operation.Bounds
import DualAscent.Proofs.Operation.Cut

/-!
# The gradient of lower bounds

The bounds of a batch rise no faster than the gradient of its backward pass says, wherever the costs
go, and exactly as fast as long as no layer changes its branch.
-/

namespace DualAscent

open Procedure Batch

section Entries

variable {α : Type} [Zero α]

theorem get_fit_slice {n : Nat} {span : Span} (long : span.length = n) (values : Array α)
    (l : Fin n) : (fit n (span.slice values)).get l = values.getD (span.start + l) 0 := by
  have inside : span.start + l < span.stop := by
    have below := l.isLt
    rw [Span.length] at long
    omega
  rw [fit, get_ofFn, Span.slice, Array.getD_eq_getD_getElem?, Array.getD_eq_getD_getElem?,
    Array.getElem?_extract]
  split
  · rfl
  · next outside => rw [Array.getElem?_eq_none (by omega)]

theorem getD_of_forall {p : α → Prop} (zero : p 0) {values : Array α}
    (each : ∀ value ∈ values, p value) (k : Nat) : p (values.getD k 0) := by
  by_cases inside : k < values.size
  · simp only [Array.getD, inside, dif_pos]
    exact each _ (Array.getElem_mem inside)
  · simp only [Array.getD, inside, dif_neg, not_false_eq_true]
    exact zero

end Entries

theorem Diagrams.highCost_undeferred {K : Type} [Field K] (d : Diagrams)
    (branches : Branches (Array K)) (l : Fin d.layers) :
    (d.undeferred branches).highCost l = (fit d.layers branches.hi).get l := by
  simp only [Costs.highCost, undeferred, get_replicate, add_zero]

namespace Operation

section Batches

variable {K : Type} [Field K] [Scalar K] {b : Batch (Solver K)}
  {branches branches' : Branches (Array K)} {outer : Array K}

theorem dot_difference_bounds (able : b.Able .lowerBounds)
    (given : outer.size = Sizes.total .bdd b.sizes) :
    dot outer (difference (bounds b branches') (bounds b branches)) =
      ∑ i, ∑ j, (fit (b.solverAt i).bdds ((b.placeAt i .bdd).slice outer)).get j *
        ((boundsAt b branches' i).get j - (boundsAt b branches i).get j) := by
  conv => lhs; rw [← joined_fit given able.stable.length_bdds]
  exact dot_difference_joined _ _ _

/-- What the gradient charges for other costs, layer by layer. -/
theorem dot_difference_gradient (able : b.Able .lowerBounds)
    (sized : branches.Sized (Sizes.total .layer b.sizes))
    (sized' : branches'.Sized (Sizes.total .layer b.sizes)) :
    dot (gradient b branches outer).lo (difference branches'.lo branches.lo) +
        dot (gradient b branches outer).hi (difference branches'.hi branches.hi) =
      ∑ i, ∑ l, ((gradientAt b branches outer i).lo.get l *
          ((costsAt b branches' i).lo.get l - (costsAt b branches i).lo.get l) +
        (gradientAt b branches outer i).hi.get l *
          ((costsAt b branches' i).highCost l - (costsAt b branches i).highCost l)) := by
  have cut {values : Array K} (long : values.size = Sizes.total .layer b.sizes) :=
    joined_fit long able.stable.length_layers
  have low := dot_difference_joined (fun i => (gradientAt b branches outer i).lo)
    (fun i => (costsAt b branches' i).lo) (fun i => (costsAt b branches i).lo)
  have high := dot_difference_joined (fun i => (gradientAt b branches outer i).hi)
    (fun i => (costsAt b branches' i).hi) (fun i => (costsAt b branches i).hi)
  simp only [costsAt, Diagrams.undeferred, Branches.map, cut sized.lo, cut sized'.lo] at low
  simp only [costsAt, Diagrams.undeferred, Branches.map, cut sized.hi, cut sized'.hi] at high
  simp only [gradient, joinBranches, List.map_ofFn, Function.comp_def, Branches.map, costsAt,
    Diagrams.highCost_undeferred, Finset.sum_add_distrib]
  exact congrArg₂ (· + ·) low high

end Batches

section Incoming

variable {α : Type} [Scalar α] [Zero α]

/-- A gradient that leaves gaps is packed, and one without gaps has to be in single precision. -/
def Packable (values : Buffer α) : Prop :=
  values.isContiguous = true → values.elementType = .single

omit [Zero α] in
theorem dense_of_packable {values : Buffer α} (packable : Packable values) (name : String) :
    (if values.isContiguous then values else values.packed).dense name = .ok values.elements := by
  split
  · next contiguous =>
      have gapless : values.stride = 1 := of_decide_eq_true contiguous
      rw [Buffer.dense, Buffer.formatFault?, packable contiguous]
      simp only [gapless, if_true]
  · exact dense_ofArray name values.elements

theorem incoming_packed (name : String) {gradient : Option (Buffer α)} {length : Nat}
    (fits : ∀ values ∈ gradient, values.length = length ∧ Packable values) :
    incoming name
        (gradient.map fun values => if values.isContiguous then values else values.packed) length =
      .ok (DenseGradients.orZeros (gradient.map Buffer.elements) length) := by
  cases gradient with
  | none => rfl
  | some values =>
      obtain ⟨length_eq, packable⟩ := fits values rfl
      refine bind_eq_ok_iff.mpr ⟨values.elements, dense_of_packable packable name, ?_⟩
      exact bind_eq_ok_iff.mpr
        ⟨(), requireSize_of_eq name (values.size_elements.trans length_eq), rfl⟩

theorem size_elements_orZeros {gradient : Option (Buffer α)} {length : Nat}
    (fits : ∀ values ∈ gradient, values.length = length ∧ Packable values) :
    (DenseGradients.orZeros (gradient.map Buffer.elements) length).size = length := by
  refine DenseGradients.size_orZeros fun elements found => ?_
  obtain ⟨values, given, rfl⟩ := Option.mem_map.mp found
  exact values.size_elements.trans (fits values given).1

variable [Add α] [Sub α] [Mul α] [Neg α]

/-- Only the elements of the incoming gradient matter. -/
theorem lowerBoundsBackward_congr {record : Saved (Branches (Array α))}
    {gradients : OutputGradients α} (fits : ∀ values ∈ gradients.values,
      values.length = Sizes.total .bdd record.sizes ∧ Packable values) :
    (lowerBoundsBackward record gradients : Work α (Solver α) _) =
      lowerBoundsBackward record ⟨none, none, none, none, some (.ofArray (DenseGradients.orZeros
        (gradients.values.map Buffer.elements) (Sizes.total .bdd record.sizes)))⟩ := by
  have outer := incoming_ofArray "grad_lb_per_bdd" (size_elements_orZeros fits)
  simp only [lowerBoundsBackward, Layout.total_ofSizes, incoming_packed "grad_lb_per_bdd" fits]
  simp only [← outer]
  rfl

end Incoming

variable {K : Type} [Field K] [LinearOrder K] [IsStrictOrderedRing K] [Scalar K] [ExactScalar K]

section Batches

variable {b : Batch (Solver K)} {branches branches' : Branches (Array K)} {outer : Array K}
  (able : b.Able .lowerBounds) (sized : branches.Sized (Sizes.total .layer b.sizes))
  (sized' : branches'.Sized (Sizes.total .layer b.sizes))
  (given : outer.size = Sizes.total .bdd b.sizes)

include able sized sized' given

/-- With weights that are not negative, bounds gain at most what their gradient charges. -/
theorem gain_bounds_le (nonneg : ∀ weight ∈ outer, 0 ≤ weight) :
    dot outer (difference (bounds b branches') (bounds b branches)) ≤
      dot (gradient b branches outer).lo (difference branches'.lo branches.lo) +
        dot (gradient b branches outer).hi (difference branches'.hi branches.hi) := by
  rw [dot_difference_bounds able given, dot_difference_gradient able sized sized']
  apply Finset.sum_le_sum
  intro i _
  refine Costs.sum_mul_boundsBy_sub_le _ _ _ fun j => ?_
  rw [get_fit_slice (able.stable.length_bdds i)]
  exact getD_of_forall le_rfl nonneg _

omit [IsStrictOrderedRing K] in
/-- Where every layer keeps its branch, they gain exactly that. -/
theorem gain_bounds_eq
    (unchanged : ∀ k < Sizes.total .layer b.sizes,
      branches.hi.getD k 0 < branches.lo.getD k 0 ↔
        branches'.hi.getD k 0 < branches'.lo.getD k 0) :
    dot outer (difference (bounds b branches') (bounds b branches)) =
      dot (gradient b branches outer).lo (difference branches'.lo branches.lo) +
        dot (gradient b branches outer).hi (difference branches'.hi branches.hi) := by
  rw [dot_difference_bounds able given, dot_difference_gradient able sized sized']
  apply Finset.sum_congr rfl
  intro i _
  refine Costs.sum_mul_boundsBy_sub_eq _ _ fun l => ?_
  have long := able.stable.length_layers i
  have below : (b.placeAt i .layer).start + l < Sizes.total .layer b.sizes := by
    have inside := stop_placeAt_le i .layer
    have := l.isLt
    rw [Span.length] at long
    omega
  simp only [costsAt, Diagrams.highCost_undeferred]
  simp only [Diagrams.undeferred, Branches.map, get_fit_slice long]
  exact unchanged _ below

end Batches

/-- The backward pass of lower bounds returns a supergradient.  If the incoming gradient has no
negative entry, other costs raise the bounds, each weighted by its entry, by no more than the
gradient charges for them.  Whatever its signs, they raise them by exactly as much if every layer
prefers the same branch as before.  Bounds and gradient may be asked for at any time, as long as the
solvers keep their standing. -/
theorem lowerBoundsBackward_isSupergradient {b b' : Batch (Solver K)}
    (same : standings b' = standings b) {branches : Branches (Buffer K)}
    {bounds : Array K} {record : Saved (Branches (Array K))}
    (ok : ((lowerBounds branches).run b).result = .ok (bounds, record))
    {gradients : OutputGradients K}
    (fits : ∀ values ∈ gradients.values, values.length = b.total .bdd ∧ Packable values) :
    let outer := DenseGradients.orZeros (gradients.values.map Buffer.elements) (b.total .bdd)
    let lo := branches.lo.elements
    let hi := branches.hi.elements
    bounds.size = b.total .bdd ∧
    ∃ gradient, ((lowerBoundsBackward record gradients).run b').result = .ok gradient ∧
      gradient.Sized (b.total .layer) ∧
      ∀ lo' hi' : Array K, lo'.size = b.total .layer → hi'.size = b.total .layer →
        ∃ bounds' record',
          ((lowerBounds ⟨.ofArray lo', .ofArray hi'⟩).run b').result = .ok (bounds', record') ∧
          bounds'.size = b.total .bdd ∧
          ((∀ weight ∈ outer, 0 ≤ weight) →
            dot outer (difference bounds' bounds) ≤
              dot gradient.lo (difference lo' lo) + dot gradient.hi (difference hi' hi)) ∧
          ((∀ k < b.total .layer, hi.getD k 0 < lo.getD k 0 ↔ hi'.getD k 0 < lo'.getD k 0) →
            dot outer (difference bounds' bounds) =
              dot gradient.lo (difference lo' lo) + dot gradient.hi (difference hi' hi)) := by
  obtain ⟨able, sized, answer⟩ := able_of_lowerBounds ok
  cases answer
  rw [total_eq_sum] at fits
  intro outer lo hi
  have given : outer.size = Sizes.total .bdd b.sizes := by
    rw [← b.total_eq_sum]
    exact size_elements_orZeros (b.total_eq_sum .bdd ▸ fits)
  refine ⟨size_bounds able, gradient b (branches.map Buffer.elements) outer, ?_,
    sized_gradient able outer, fun lo' hi' low high => ?_⟩
  · rw [(agrees_lowerBoundsBackward _ gradients same).result, lowerBoundsBackward_congr fits]
    dsimp only
    rw [← b.total_eq_sum]
    exact lowerBoundsBackward_of_able able sized given
  have sized' : Branches.Sized (Sizes.total .layer b.sizes) ⟨lo', hi'⟩ :=
    ⟨low.trans (b.total_eq_sum .layer), high.trans (b.total_eq_sum .layer)⟩
  have told := lowerBounds_of_able able sized'
  rw [← (agrees_lowerBounds _ same).result] at told
  refine ⟨_, _, told, size_bounds able, fun nonneg => ?_, fun unchanged => ?_⟩
  · exact gain_bounds_le able sized sized' given nonneg
  · rw [total_eq_sum] at unchanged
    exact gain_bounds_eq able sized sized' given unchanged

/-- A solver with one chain and one with two. -/
def uneven : Batch (Solver ℚ) :=
  ofSolvers [.ofDiagrams ⟨1, [[.last 0]]⟩ none none,
    .ofDiagrams ⟨1, [[.last 0], [.last 0]]⟩ none none]

/-- One layer prefers the high branch before and the low one afterwards, and another one is
indifferent. -/
theorem uneven_isSupergradient :
    let costs : Branches (Buffer ℚ) :=
      ⟨.ofArray #[2, 0, 1, 0, 0, 0], .ofArray #[1, 0, 1, 0, 3, 0]⟩
    let later := ((lowerBounds costs).run uneven).state
    let gradients : OutputGradients ℚ :=
      ⟨none, none, none, none, some (.ofArray #[1, 2, 1 / 2])⟩
    ∃ bounds record gradient bounds' record',
      ((lowerBounds costs).run uneven).result = .ok (bounds, record) ∧
      ((lowerBoundsBackward record gradients).run later).result = .ok gradient ∧
      ((lowerBounds ⟨.ofArray #[0, 0, 1, 0, 0, 0], .ofArray #[1, 0, 2, 0, 3, 0]⟩).run
        later).result = .ok (bounds', record') ∧
      dot #[1, 2, 1 / 2] (difference bounds' bounds) ≤
        dot gradient.lo (difference #[0, 0, 1, 0, 0, 0] #[2, 0, 1, 0, 0, 0]) +
          dot gradient.hi (difference #[1, 0, 2, 0, 3, 0] #[1, 0, 1, 0, 3, 0]) := by
  intro costs later gradients
  have told : ((lowerBounds costs).run uneven).result.toOption.isSome = true := by
    decide +kernel
  obtain ⟨⟨bounds, record⟩, found⟩ := Option.isSome_iff_exists.mp told
  have ok := toOption_eq_some_iff.mp found
  have standing : standings later = standings uneven :=
    fixes_lowerBounds (fun _ _ => rfl) costs uneven
  have fits : ∀ values ∈ gradients.values, values.length = uneven.total .bdd ∧
      Packable values := by
    intro values given
    cases given
    exact ⟨by decide +kernel, fun _ => rfl⟩
  obtain ⟨-, gradient, returned, -, others⟩ := lowerBoundsBackward_isSupergradient standing ok fits
  obtain ⟨bounds', record', told', -, below, -⟩ :=
    others #[0, 0, 1, 0, 0, 0] #[1, 0, 2, 0, 3, 0] (by decide +kernel) (by decide +kernel)
  simp only [costs, gradients, Option.map_some, Buffer.elements_ofArray] at below
  refine ⟨bounds, record, gradient, bounds', record', ok, returned, told', below ?_⟩
  intro weight member
  have weights : weight = 1 ∨ weight = 2 ∨ weight = 1 / 2 := by
    simpa [DenseGradients.orZeros] using member
  rcases weights with rfl | rfl | rfl
  all_goals norm_num

end Operation

end DualAscent
