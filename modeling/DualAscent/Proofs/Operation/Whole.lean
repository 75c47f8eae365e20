import DualAscent.Proofs.Operation.Call

/-!
# What a call does to a batch

On arrays that fit the batch all checks pass.  A call then visits the solvers one after the other
and puts the answer together from what they answered.
-/

namespace DualAscent

open Procedure Batch

section Checks

variable {α : Type} [Scalar α]

theorem Costs.dense_ofArray (costs : Costs (Array α)) :
    (costs.map Buffer.ofArray).dense = .ok costs := by
  simp only [Costs.dense, Branches.dense, Costs.map, Operation.dense_ofArray]
  rfl

theorem Branches.dense_ofArray (low high : String) (branches : Branches (Array α)) :
    (branches.map Buffer.ofArray).dense low high = .ok branches := by
  simp only [Branches.dense, Branches.map, Operation.dense_ofArray]
  rfl

omit [Scalar α] in
theorem requireSize_of_eq (name : String) {values : Array α} {n : Nat} (sized : values.size = n) :
    requireSize name values n = .ok () :=
  if_pos sized

omit [Scalar α] in
theorem Costs.requireAligned_of_sized {costs : Costs (Array α)} {n : Nat} (sized : costs.Sized n) :
    costs.requireAligned = .ok () := by
  rw [requireAligned, requireSize_of_eq _ (sized.hi.trans sized.lo.symm),
    requireSize_of_eq _ (sized.deferred.trans sized.lo.symm)]
  rfl

theorem Operation.denseBranches_ofArray {branches : Branches (Array α)} {n : Nat}
    (sized : branches.Sized n) :
    denseBranches (branches.map Buffer.ofArray) = .ok branches := by
  rw [denseBranches, Branches.dense_ofArray]
  show (requireSize _ branches.hi branches.lo.size >>= fun _ => .ok branches) = _
  rw [requireSize_of_eq _ (sized.hi.trans sized.lo.symm)]
  rfl

theorem Damping.dense_ofArray {damping : Damping α (Array α)} {n : Nat} (sized : damping.Sized n) :
    (damping.map Buffer.ofArray).dense n = .ok damping := by
  cases damping with
  | shared value => rfl
  | perLayer factors =>
      rw [Damping.map, Damping.dense, Operation.dense_ofArray]
      show (requireSize _ factors n >>= fun _ => .ok (perLayer factors)) = _
      rw [requireSize_of_eq _ sized]
      rfl

theorem Operation.denseInputs_ofArray [Zero α] {inputs : Inputs α (Array α)} {n : Nat}
    (sized : inputs.Sized n) :
    denseInputs (inputs.map Buffer.ofArray) = .ok inputs := by
  have damping := Damping.dense_ofArray (sized.costs.lo.symm ▸ sized.damping)
  have weights := requireSize_of_eq "dist_weights" (sized.weights.trans sized.costs.lo.symm)
  simp only [denseInputs, Inputs.map, Costs.dense_ofArray, Operation.dense_ofArray]
  show (inputs.costs.requireAligned >>= fun _ => requireSize "dist_weights" inputs.weights
    inputs.costs.lo.size >>= fun _ => (inputs.damping.map Buffer.ofArray).dense
      inputs.costs.lo.size >>= fun damping => .ok (Inputs.mk inputs.costs inputs.weights damping)) =
        _
  rw [Costs.requireAligned_of_sized sized.costs, weights, damping]
  rfl

theorem Operation.densePerturbed_ofArray {inputs : Perturbed (Array α)} {m n : Nat}
    (change : inputs.change.Sized m) (costs : inputs.costs.Sized n) :
    densePerturbed ⟨inputs.change.map .ofArray, inputs.costs.map .ofArray⟩ = .ok inputs := by
  simp only [densePerturbed, Branches.dense_ofArray]
  show (requireSize _ inputs.costs.hi inputs.costs.lo.size >>= fun _ =>
    requireSize _ inputs.change.hi inputs.change.lo.size >>= fun _ => .ok inputs) = _
  rw [requireSize_of_eq _ (costs.hi.trans costs.lo.symm),
    requireSize_of_eq _ (change.hi.trans change.lo.symm)]
  rfl

theorem Operation.incoming_buffers [Zero α] (name : String) {gradient : Option (Array α)} {n : Nat}
    (fits : ∀ values ∈ gradient, values.size = n) :
    incoming name (gradient.map .ofArray) n = .ok (DenseGradients.orZeros gradient n) := by
  cases gradient with
  | none => rfl
  | some values => exact incoming_ofArray name (fits values rfl)

theorem Operation.incomingBranches_buffers [Zero α] {gradients : DenseGradients α}
    {kind : Segmentation} {sizes : List Sizes} (fits : gradients.Fits kind sizes) :
    incomingBranches gradients.buffers (Sizes.total .layer sizes) =
      .ok (gradients.branches (Sizes.total .layer sizes)) := by
  rw [incomingBranches]
  simp only [DenseGradients.buffers, incoming_buffers _ fits.lo, incoming_buffers _ fits.hi]
  rfl

end Checks

/-- A list whose entries are known one by one. -/
theorem eq_mapIdx {ι β : Type} {parts : List β} {shares : List ι} {f : Nat → ι → β}
    (length_eq : parts.length = shares.length)
    (each : ∀ i share, shares[i]? = some share → parts[i]? = some (f i share)) :
    parts = shares.mapIdx f := by
  refine List.ext_getElem? fun i => ?_
  rw [List.getElem?_mapIdx]
  cases found : shares[i]? with
  | none =>
      rw [List.getElem?_eq_none_iff, ← length_eq] at found
      rw [List.getElem?_eq_none found]
      rfl
  | some share => exact each i share found

theorem map_mapIdx {ι β γ : Type} (f : β → γ) (g : Nat → ι → β) (shares : List ι) :
    (shares.mapIdx g).map f = shares.mapIdx fun i share => f (g i share) :=
  List.ext_getElem (by simp) (by simp)

theorem zip_mapIdx {ι γ δ : Type} (f : Nat → ι → γ) (g : Nat → ι → δ) (shares : List ι) :
    (shares.mapIdx f).zip (shares.mapIdx g) = shares.mapIdx fun i share => (f i share, g i share) :=
  List.ext_getElem (by simp) (by simp)

namespace Call

variable {α π β : Type} [Scalar α] [Zero α] [Add α] [Sub α] [Mul α] [Neg α] {b : Batch (Solver α)}

/-- The solvers are visited one after the other, and their answers put together. -/
def visits (call : Call α π β) (sizes : List Sizes) : Work α (Solver α) β := do
  let parts ← visit sizes fun i size => call.one i (place sizes i size)
  lift (call.finish sizes parts)

theorem ending_visits (call : Call α π β)
    {work : Nat → Sizes → Procedure (Event α) (Solver α) (Error α) π}
    {next : List π → Work α (Solver α) β}
    (same : ∀ i size, work i size = call.one i (place b.sizes i size))
    (alike : ∀ parts, Alike (next parts) (lift (call.finish b.sizes parts))) :
    ((visit b.sizes work >>= next).run b).ending = ((call.visits b.sizes).run b).ending := by
  obtain rfl : work = fun i size => call.one i (place b.sizes i size) :=
    funext fun i => funext fun size => same i size
  exact Alike.bind (.refl _) alike b

omit [Add α] [Sub α] [Mul α] [Neg α] in
theorem alike_finish (call : Call α π β) {named : List (String × Array α)} {answer : β}
    {sizes : List Sizes} {parts : List π}
    (named_eq : named = (call.outgoing answer).map fun gradient =>
      (gradient.1, gradient.2.2))
    (answer_eq : answer = call.answer sizes parts) :
    Alike (lift (Operation.requireFiniteArrays named) >>= fun _ => pure answer :
      Work α (Solver α) β) (lift (call.finish sizes parts)) := by
  subst named_eq answer_eq
  intro s
  rw [run_lift_bind_pure]
  rfl

theorem ending_redistribute {costs : Costs (Array α)}
    (fits : costs.Sized (Sizes.total .layer b.sizes)) (stable : b.Stable) :
    ((redistribute costs).perform.run b).ending =
      (((redistribute costs).visits b.sizes).run b).ending := by
  simp only [perform, Operation.redistribute, Costs.dense_ofArray,
    Costs.requireAligned_of_sized fits, run_lift_ok_bind]
  rw [(yields_resolve stable .layer fits.lo).ending_bind, run_read_bind, Layout.spans_ofSizes,
    visit_mapIdx]
  rfl

theorem ending_minMarginals {branches : Branches (Array α)}
    (fits : branches.Sized (Sizes.total .layer b.sizes)) (stable : b.Stable) :
    ((minMarginals branches).perform.run b).ending =
      (((minMarginals branches).visits b.sizes).run b).ending := by
  simp only [perform, Operation.minMarginals, Operation.denseBranches_ofArray fits,
    run_lift_ok_bind]
  rw [(yields_resolve stable .layer fits.lo).ending_bind, run_read_bind, Layout.spans_ofSizes,
    visit_mapIdx]
  rfl

theorem ending_solution {branches : Branches (Array α)}
    (fits : branches.Sized (Sizes.total .layer b.sizes)) (stable : b.Stable) :
    ((solution branches).perform.run b).ending =
      (((solution branches).visits b.sizes).run b).ending := by
  simp only [perform, Operation.solution, Operation.denseBranches_ofArray fits,
    run_lift_ok_bind]
  rw [(yields_resolve stable .layer fits.lo).ending_bind, Layout.spans_ofSizes, visit_mapIdx]
  rfl

theorem ending_round {costs : Costs (Array α)} (settings : RoundingSettings α)
    (fits : costs.Sized (Sizes.total .layer b.sizes)) (stable : b.Stable) :
    ((round costs settings).perform.run b).ending =
      (((round costs settings).visits b.sizes).run b).ending := by
  simp only [perform, Operation.round, Costs.dense_ofArray,
    Costs.requireAligned_of_sized fits, run_lift_ok_bind]
  rw [(yields_resolve stable .layer fits.lo).ending_bind, Layout.spans_ofSizes, visit_mapIdx]
  exact ending_visits (round costs settings) (fun _ _ => rfl) (fun _ _ => rfl)

theorem ending_lowerBounds {branches : Branches (Array α)}
    (fits : branches.Sized (Sizes.total .layer b.sizes)) (stable : b.Stable) :
    ((lowerBounds branches).perform.run b).ending =
      (((lowerBounds branches).visits b.sizes).run b).ending := by
  simp only [perform, Operation.lowerBounds, Operation.denseBranches_ofArray fits,
    run_lift_ok_bind]
  rw [(yields_resolve stable .layer fits.lo).ending_bind, run_read_bind,
    (yields_resolve stable .bdd (b.total_eq_sum .bdd)).ending_bind, Layout.spans_ofSizes,
    Layout.spans_ofSizes, zip_mapIdx, visit_mapIdx]
  rfl

theorem ending_perturb {inputs : Perturbed (Array α)}
    (change : inputs.change.Sized (Sizes.total .slot b.sizes))
    (costs : inputs.costs.Sized (Sizes.total .layer b.sizes)) (stable : b.Stable) :
    ((perturb inputs).perform.run b).ending = (((perturb inputs).visits b.sizes).run b).ending := by
  simp only [perform, Operation.perturb, Operation.densePerturbed_ofArray change costs,
    run_lift_ok_bind]
  rw [(yields_resolve stable .layer costs.lo).ending_bind,
    (yields_resolve stable .slot change.lo).ending_bind, run_read_bind, Layout.spans_ofSizes,
    Layout.spans_ofSizes, zip_mapIdx, visit_mapIdx]
  rfl

theorem ending_ascend {inputs : Inputs α (Array α)} (settings : AscentSettings α)
    (fits : inputs.Sized (Sizes.total .layer b.sizes)) (stable : b.Stable) :
    ((ascend inputs settings).perform.run b).ending =
      (((ascend inputs settings).visits b.sizes).run b).ending := by
  simp only [perform, Operation.ascend, Operation.denseInputs_ofArray fits, run_lift_ok_bind]
  rw [(yields_resolve stable .layer fits.costs.lo).ending_bind, run_read_bind,
    (yields_resolve stable .bdd (b.total_eq_sum .bdd)).ending_bind, Layout.spans_ofSizes,
    Layout.spans_ofSizes, zip_mapIdx, visit_mapIdx]
  exact ending_visits (ascend inputs settings) (fun _ _ => rfl) (fun _ _ => rfl)

theorem ending_redistributeBackward {record : Saved (Costs (Array α))}
    {gradients : DenseGradients α} (fits : (redistributeBackward record gradients).Fits b.sizes)
    (stable : b.Stable) :
    ((redistributeBackward record gradients).perform.run b).ending =
      (((redistributeBackward record gradients).visits b.sizes).run b).ending := by
  obtain ⟨sizes, inputs, outer⟩ := fits
  have matched := ensureMatches_eq_ok_iff.mpr ⟨rfl, stable⟩
  simp only [perform, Operation.redistributeBackward, run_read_bind, matched, run_lift_ok_bind,
    inputs.lo, Operation.incomingBranches_buffers outer, sizes, Layout.require_ofSizes,
    Layout.spans_ofSizes, visit_mapIdx]
  refine ending_visits (redistributeBackward record gradients) (fun i size => ?_) fun parts => ?_
  · rw [← inputs.lo]
    rfl
  · rw [← inputs.lo]
    exact alike_finish _ rfl rfl

theorem ending_minMarginalsBackward {record : Saved (Branches (Array α))}
    {gradients : DenseGradients α} (fits : (minMarginalsBackward record gradients).Fits b.sizes)
    (stable : b.Stable) :
    ((minMarginalsBackward record gradients).perform.run b).ending =
      (((minMarginalsBackward record gradients).visits b.sizes).run b).ending := by
  obtain ⟨sizes, inputs, outer⟩ := fits
  have matched := ensureMatches_eq_ok_iff.mpr ⟨rfl, stable⟩
  have incoming := Operation.incoming_buffers "grad_mm_diff" outer.values
  simp only [perform, Operation.minMarginalsBackward, run_read_bind, matched, run_lift_ok_bind,
    inputs.lo, DenseGradients.buffers, incoming, sizes, Layout.require_ofSizes,
    Layout.spans_ofSizes, visit_mapIdx]
  refine ending_visits (minMarginalsBackward record gradients) (fun i size => ?_) fun parts => ?_
  · rw [← inputs.lo]
    rfl
  · exact alike_finish _ rfl rfl

theorem ending_perturbBackward {record : Saved (Perturbed (Array α))}
    {gradients : DenseGradients α} (fits : (perturbBackward record gradients).Fits b.sizes)
    (stable : b.Stable) :
    ((perturbBackward record gradients).perform.run b).ending =
      (((perturbBackward record gradients).visits b.sizes).run b).ending := by
  obtain ⟨sizes, change, costs, outer⟩ := fits
  have matched := ensureMatches_eq_ok_iff.mpr ⟨rfl, stable⟩
  simp only [perform, Operation.perturbBackward, run_read_bind, matched, run_lift_ok_bind,
    costs.lo, change.lo, Operation.incomingBranches_buffers outer, sizes, Layout.require_ofSizes,
    Layout.spans_ofSizes, zip_mapIdx, visit_mapIdx]
  refine ending_visits (perturbBackward record gradients) (fun i size => ?_) fun parts => ?_
  · rw [← costs.lo]
    rfl
  · rw [← costs.lo]
    exact alike_finish _ rfl rfl

theorem ending_lowerBoundsBackward {record : Saved (Branches (Array α))}
    {gradients : DenseGradients α} (fits : (lowerBoundsBackward record gradients).Fits b.sizes)
    (stable : b.Stable) :
    ((lowerBoundsBackward record gradients).perform.run b).ending =
      (((lowerBoundsBackward record gradients).visits b.sizes).run b).ending := by
  obtain ⟨sizes, inputs, outer⟩ := fits
  have matched := ensureMatches_eq_ok_iff.mpr ⟨rfl, stable⟩
  have bounds : (Layout.ofSizes .bdd b.sizes).total = Sizes.total .bdd b.sizes :=
    Layout.total_ofSizes .bdd b.sizes
  have packed : (gradients.values.map Buffer.ofArray).map (fun values =>
      if values.isContiguous then values else values.packed) =
        gradients.values.map Buffer.ofArray := by
    cases gradients.values with
    | none => rfl
    | some values => rfl
  have incoming := Operation.incoming_buffers "grad_lb_per_bdd" outer.values
  simp only [perform, Operation.lowerBoundsBackward, run_read_bind, matched, run_lift_ok_bind,
    inputs.lo, DenseGradients.buffers, packed, bounds, incoming, sizes, Layout.require_ofSizes,
    Layout.spans_ofSizes, zip_mapIdx, visit_mapIdx]
  refine ending_visits (lowerBoundsBackward record gradients) (fun i size => ?_) fun parts => ?_
  · rw [← sizes]
    rfl
  · exact alike_finish _ rfl rfl

end Call

end DualAscent
