import DualAscent.Proofs.Operation.Call

/-!
# The share of one solver

Arrays that fit a batch are cut into arrays that fit each of its solvers.  On its share a solver
does the same whether it stands alone or in the batch.
-/

namespace DualAscent

open Procedure Batch

variable {α : Type}

@[simp]
theorem Sizes.total_singleton (kind : Segmentation) (size : Sizes) :
    Sizes.total kind [size] = size.segment kind :=
  Nat.add_zero _

theorem place_alone (size : Sizes) (kind : Segmentation) :
    place [size] 0 size kind = ⟨0, size.segment kind⟩ := by
  simp [place, Sizes.total]

section Slice

variable {sizes : List Sizes} {i : Nat} {size : Sizes} {kind : Segmentation}

@[simp]
theorem slice_alone {β : Type} (values : Array β) :
    (place [size] 0 size kind).slice ((place sizes i size kind).slice values) =
      (place sizes i size kind).slice values := by
  rw [place_alone, Span.slice, Span.slice]
  apply Array.extract_eq_self_of_le
  simp only [Array.size_extract, place]
  omega

theorem size_slice_place (found : sizes[i]? = some size) {values : Array α}
    (sized : values.size = Sizes.total kind sizes) :
    ((place sizes i size kind).slice values).size = size.segment kind := by
  rw [Span.size_slice _ _ (sized ▸ stop_place_le found kind), length_place]

theorem slice_zeros [Zero α] (found : sizes[i]? = some size) :
    (place sizes i size kind).slice (Array.replicate (Sizes.total kind sizes) (0 : α)) =
      Array.replicate (size.segment kind) 0 := by
  have inside := stop_place_le found kind
  rw [Span.slice, Array.extract_replicate, Nat.min_eq_left inside]
  exact congrArg (Array.replicate · 0) (length_place sizes i size kind)

theorem Costs.map_slice_alone (costs : Costs (Array α)) :
    (costs.map (place sizes i size kind).slice).map (place [size] 0 size kind).slice =
      costs.map (place sizes i size kind).slice := by
  simp only [Costs.map, slice_alone]

theorem Damping.map_slice_alone (damping : Damping α (Array α)) :
    (damping.map (place sizes i size kind).slice).map (place [size] 0 size kind).slice =
      damping.map (place sizes i size kind).slice := by
  cases damping with
  | shared value => rfl
  | perLayer factors => simp only [Damping.map, slice_alone]

theorem Inputs.map_slice_alone (inputs : Inputs α (Array α)) :
    (inputs.map (place sizes i size kind).slice).map (place [size] 0 size kind).slice =
      inputs.map (place sizes i size kind).slice := by
  simp only [Inputs.map, Costs.map_slice_alone, Damping.map_slice_alone, slice_alone]

theorem Operation.zeros_alone [Zero α] (sizes : List Sizes) (i : Nat) (size : Sizes)
    (kind : Segmentation) :
    (zeros (place [size] 0 size kind) : Array α) = zeros (place sizes i size kind) := by
  rw [zeros, zeros, length_place, length_place]

theorem Operation.undeferred_alone [Zero α] (branches : Branches (Array α)) :
    undeferred (branches.map (place sizes i size kind).slice) (place [size] 0 size kind) =
      undeferred branches (place sizes i size kind) := by
  simp only [undeferred, Branches.map, slice_alone]
  rw [zeros_alone sizes i]

theorem Operation.alike_logGradients {σ : Type} {i j : Nat}
    {named named' : List (String × Array α)} :
    Alike (logGradients i named : Procedure _ σ _ Unit) (logGradients j named') :=
  fun s => (yields_logGradients i named s).ending.trans (yields_logGradients j named' s).ending.symm

theorem Branches.Sized.cut {branches : Branches (Array α)}
    (sized : branches.Sized (Sizes.total kind sizes)) (found : sizes[i]? = some size) :
    (branches.map (place sizes i size kind).slice).Sized (size.segment kind) :=
  ⟨size_slice_place found sized.lo, size_slice_place found sized.hi⟩

theorem Costs.Sized.cut {costs : Costs (Array α)} (sized : costs.Sized (Sizes.total kind sizes))
    (found : sizes[i]? = some size) :
    (costs.map (place sizes i size kind).slice).Sized (size.segment kind) := by
  rw [← length_place sizes i size kind]
  exact sized.slice (stop_place_le found kind)

theorem Inputs.Sized.cut {inputs : Inputs α (Array α)}
    (sized : inputs.Sized (Sizes.total kind sizes)) (found : sizes[i]? = some size) :
    (inputs.map (place sizes i size kind).slice).Sized (size.segment kind) := by
  rw [← length_place sizes i size kind]
  exact sized.slice (stop_place_le found kind)

namespace DenseGradients

variable {gradients : DenseGradients α}

theorem size_of_mem_map_slice {gradient : Option (Array α)} (found : sizes[i]? = some size)
    (fits : ∀ values ∈ gradient, values.size = Sizes.total kind sizes) :
    ∀ values ∈ gradient.map (place sizes i size kind).slice, values.size = size.segment kind := by
  intro values member
  obtain ⟨whole, inside, rfl⟩ := Option.mem_map.mp member
  exact size_slice_place found (fits whole inside)

theorem Fits.cut (fits : gradients.Fits kind sizes) (found : sizes[i]? = some size) :
    (gradients.cut (place sizes i size) kind).Fits kind [size] where
  lo := size_of_mem_map_slice found fits.lo
  hi := size_of_mem_map_slice found fits.hi
  deferred := size_of_mem_map_slice found fits.deferred
  values := size_of_mem_map_slice found fits.values

variable [Zero α]

theorem orZeros_map_slice (found : sizes[i]? = some size) (gradient : Option (Array α)) :
    orZeros (gradient.map (place sizes i size kind).slice) (size.segment kind) =
      (place sizes i size kind).slice (orZeros gradient (Sizes.total kind sizes)) := by
  cases gradient with
  | none => exact (slice_zeros found).symm
  | some values => rfl

theorem size_orZeros {gradient : Option (Array α)} {length : Nat}
    (fits : ∀ values ∈ gradient, values.size = length) :
    (orZeros gradient length).size = length := by
  cases gradient with
  | none => exact Array.size_replicate
  | some values => exact fits values rfl

theorem Fits.sized_branches (fits : gradients.Fits kind sizes) :
    (gradients.branches (Sizes.total .layer sizes)).Sized (Sizes.total .layer sizes) :=
  ⟨size_orZeros fits.lo, size_orZeros fits.hi⟩

theorem branches_cut (found : sizes[i]? = some size) :
    (gradients.cut (place sizes i size) kind).branches size.layers =
      (gradients.branches (Sizes.total .layer sizes)).map (place sizes i size .layer).slice :=
  congrArg₂ Branches.mk (orZeros_map_slice found gradients.lo)
    (orZeros_map_slice found gradients.hi)

theorem costs_cut (found : sizes[i]? = some size) :
    (gradients.cut (place sizes i size) kind).costs size.layers =
      (gradients.costs (Sizes.total .layer sizes)).map (place sizes i size .layer).slice := by
  rw [costs, branches_cut found]
  exact congrArg (Costs.mk _) (orZeros_map_slice found gradients.deferred)

end DenseGradients

namespace Call

variable {π β : Type} {call : Call α π β}

theorem Fits.cut (fits : call.Fits sizes) (found : sizes[i]? = some size) :
    (call.cut (place sizes i size) i size).Fits [size] := by
  cases call with
  | ascend inputs settings => exact Inputs.Sized.cut fits found
  | redistribute costs => exact Costs.Sized.cut fits found
  | minMarginals branches => exact Branches.Sized.cut fits found
  | perturb inputs => exact ⟨fits.1.cut found, fits.2.cut found⟩
  | lowerBounds branches => exact Branches.Sized.cut fits found
  | ascendBackward record gradients =>
      obtain ⟨-, realized, inputs, outer⟩ := fits
      obtain ⟨inside, -⟩ := List.getElem?_eq_some_iff.mp found
      refine ⟨rfl, ?_, inputs.cut found, outer.cut found⟩
      rw [cutAscent, List.getElem?_eq_getElem (realized ▸ inside)]
      rfl
  | redistributeBackward record gradients =>
      obtain ⟨-, inputs, outer⟩ := fits
      exact ⟨rfl, inputs.cut found, outer.cut found⟩
  | minMarginalsBackward record gradients =>
      obtain ⟨-, inputs, outer⟩ := fits
      exact ⟨rfl, inputs.cut found, outer.cut found⟩
  | perturbBackward record gradients =>
      obtain ⟨-, change, costs, outer⟩ := fits
      exact ⟨rfl, change.cut found, costs.cut found, outer.cut found⟩
  | lowerBoundsBackward record gradients =>
      obtain ⟨-, inputs, outer⟩ := fits
      exact ⟨rfl, inputs.cut found, outer.cut found⟩
  | round costs settings => exact Costs.Sized.cut fits found
  | solution branches => exact Branches.Sized.cut fits found

theorem Separate.cut (separate : call.Separate) (place : Segmentation → Span) :
    (call.cut place i size).Separate := by
  cases call with
  | ascendBackward record gradients =>
      have separate : record.inputs.damping.shared? = none := separate
      show (record.inputs.damping.map (place .layer).slice).shared? = none
      cases kind : record.inputs.damping with
      | shared value =>
          rw [kind] at separate
          cases separate
      | perLayer factors => rfl
  | _ => trivial

variable [Scalar α] [Zero α] [Add α] [Sub α] [Mul α] [Neg α]

/-- A solver does on its share what it does in the batch. -/
theorem alike_one (fits : call.Fits sizes) (found : sizes[i]? = some size) :
    Alike ((call.cut (place sizes i size) i size).one 0 (place [size] 0 size))
      (call.one i (place sizes i size)) := by
  cases call with
  | ascend inputs settings =>
      simp only [cut, one, Operation.ascendOne, Inputs.map_slice_alone, Operation.roomForCosts,
        Operation.trendRequest, length_place]
      exact .bind (.log _ _) fun _ => .bind alike_attempt fun _ =>
        .bind alike_attempt fun _ => .bind alike_attempt fun _ => .refl _
  | redistribute costs =>
      simp only [cut, one, Operation.redistributeOne, Costs.map_slice_alone, Operation.roomForCosts,
        length_place]
      exact .bind (.log _ _) fun _ => .bind alike_attempt fun _ =>
        .bind alike_attempt fun _ => alike_attempt
  | minMarginals branches =>
      simp only [cut, one, Operation.minMarginalsOne, Operation.undeferred_alone, length_place]
      exact .bind (.log _ _) fun _ => .bind alike_attempt fun _ => alike_attempt
  | perturb inputs =>
      simp only [cut, one, Operation.perturbOne, cutPerturbed, Operation.undeferred_alone,
        Operation.roomForCosts, length_place]
      simp only [Branches.map, slice_alone]
      exact .bind (.log _ _) fun _ => .bind alike_attempt fun _ => .bind alike_attempt fun _ =>
        .bind alike_attempt fun _ => .refl _
  | lowerBounds branches =>
      simp only [cut, one, Operation.lowerBoundsOne, Operation.undeferred_alone, length_place]
      exact .bind (.log _ _) fun _ => .bind alike_attempt fun _ => alike_attempt
  | ascendBackward record gradients =>
      obtain ⟨-, -, inputs, -⟩ := fits
      have lo_eq : (record.inputs.map (place sizes i size .layer).slice).costs.lo.size =
          size.layers := (inputs.cut found).costs.lo
      have window_eq : windowOf (cutAscent record (place sizes i size) i size) 0 =
          windowOf record i := by
        rw [windowOf, windowOf, cutAscent, List.getD_eq_getElem?_getD, List.getD_eq_getElem?_getD]
        cases record.realized[i]? with
        | none => rfl
        | some run => rfl
      simp only [cut, one, window_eq]
      simp only [cutAscent, Operation.descendOne, Inputs.map_slice_alone, lo_eq, inputs.costs.lo,
        DenseGradients.costs_cut found, Costs.map_slice_alone,
        Operation.zeros_alone sizes i size .layer]
      exact .bind (.bind (.log _ _) fun _ => .bind alike_attempt fun _ =>
        .bind Operation.alike_logGradients fun _ => .bind alike_attempt fun _ =>
          .bind Operation.alike_logGradients fun _ => .refl _) fun _ => .refl _
  | redistributeBackward record gradients =>
      obtain ⟨-, inputs, -⟩ := fits
      have lo_eq : (record.inputs.map (place sizes i size .layer).slice).lo.size = size.layers :=
        (inputs.cut found).lo
      simp only [cut, cutRecord, one, Operation.redistributeOneBackward, Costs.map_slice_alone,
        lo_eq, inputs.lo, DenseGradients.branches_cut found, Branches.map, slice_alone,
        length_place]
      exact .bind alike_attempt fun _ => alike_attempt
  | minMarginalsBackward record gradients =>
      obtain ⟨-, inputs, -⟩ := fits
      have lo_eq : (record.inputs.map (place sizes i size .layer).slice).lo.size =
          size.segment .layer := (inputs.cut found).lo
      simp only [cut, cutRecord, one, Operation.minMarginalsOneBackward, Operation.undeferred_alone,
        lo_eq, inputs.lo, DenseGradients.cut, DenseGradients.orZeros_map_slice found, slice_alone,
        length_place]
      exact .bind alike_attempt fun _ => alike_attempt
  | perturbBackward record gradients =>
      obtain ⟨-, -, costs, -⟩ := fits
      have lo_eq : (record.inputs.costs.map (place sizes i size .layer).slice).lo.size =
          size.layers := (costs.cut found).lo
      simp only [cut, cutRecord, cutPerturbed, one, Operation.perturbOneBackward,
        Operation.undeferred_alone, lo_eq, costs.lo, DenseGradients.branches_cut found,
        length_place]
      simp only [Branches.map, slice_alone]
      exact .bind alike_attempt fun _ => alike_attempt
  | lowerBoundsBackward record gradients =>
      obtain ⟨sizes_eq, -, -⟩ := fits
      simp only [cut, cutRecord, one, Operation.lowerBoundsOneBackward, Operation.undeferred_alone,
        sizes_eq, DenseGradients.cut, Sizes.total_singleton,
        DenseGradients.orZeros_map_slice found, slice_alone, length_place,
        Operation.zeros_alone sizes i size .layer]
      exact .bind alike_attempt fun _ => alike_attempt
  | round costs settings =>
      simp only [cut, one, Operation.roundOne, Costs.map_slice_alone]
      exact .bind (.log _ _) fun _ => .bind alike_attempt fun _ => alike_attempt
  | solution branches =>
      simp only [cut, one, Operation.solutionOne, Operation.undeferred_alone, length_place]
      exact .bind alike_attempt fun _ => alike_attempt

end Call

end Slice

end DualAscent
