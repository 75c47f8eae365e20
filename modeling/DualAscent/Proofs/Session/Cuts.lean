import DualAscent.Proofs.Session.Fitting
import DualAscent.Proofs.Slicing

/-!
# Cuts

Flat arrays are cut into the segments of the solvers.  A command that fits its batch has a part for
every solver, and none of the cuts that the part takes is out of range.
-/

namespace DualAscent

open Batch

variable {α β : Type}

namespace Batch

variable {Λ σ ε ι γ : Type}

/-- What a traversal has the solver at a position do, with its cuts, if there is a share for it. -/
def assignedSliced (shares : List ι) (work : Nat → ι → Sliced (Procedure Λ σ ε γ)) (i : Nat) :
    Option (Sliced (Procedure Λ σ ε Unit)) :=
  shares[i]?.map fun share => (fun part => (fun _ => ()) <$> part) <$> work i share

theorem exists_assignedSliced {shares : List ι} {i : Nat} {share : ι}
    (found : shares[i]? = some share) {work : Nat → ι → Sliced (Procedure Λ σ ε γ)}
    {plain : Nat → ι → Procedure Λ σ ε γ} (same : (work i share).value = plain i share)
    (inside : (work i share).Inside) :
    ∃ part ∈ assignedSliced shares work i,
      part.value = assigned shares plain i ∧ part.Inside := by
  refine ⟨_, Option.map_eq_some_iff.mpr ⟨share, found, rfl⟩, ?_, inside.map _⟩
  rw [assigned, found]
  exact congrArg ((fun _ => ()) <$> ·) same

theorem exists_assignedSliced_zip {κ : Type} {firsts : List ι} {seconds : List κ} {i : Nat}
    {first : ι} {second : κ} (first_at : firsts[i]? = some first)
    (second_at : seconds[i]? = some second)
    {work : Nat → ι × κ → Sliced (Procedure Λ σ ε γ)} {plain : Nat → ι × κ → Procedure Λ σ ε γ}
    (same : (work i (first, second)).value = plain i (first, second))
    (inside : (work i (first, second)).Inside) :
    ∃ part ∈ assignedSliced (firsts.zip seconds) work i,
      part.value = assigned (firsts.zip seconds) plain i ∧ part.Inside :=
  exists_assignedSliced (List.getElem?_zip_eq_some.mpr ⟨first_at, second_at⟩) same inside

end Batch

/-- Every solver has a segment, and it lies in the arrays that the layout covers. -/
theorem Layout.exists_span {sizes : List Sizes} {i : Nat} (within : i < sizes.length)
    (kind : Segmentation) :
    ∃ span, (ofSizes kind sizes).spans[i]? = some span ∧ span.Within (Sizes.total kind sizes) := by
  have found : sizes[i]? = some sizes[i] := List.getElem?_eq_getElem within
  refine ⟨place sizes i sizes[i] kind, ?_, Nat.le_add_right _ _, stop_place_le found kind⟩
  rw [spans_ofSizes, List.getElem?_mapIdx, found]
  rfl

section Cuts

variable [Scalar α] [Zero α] [Add α] [Sub α] [Mul α] [Neg α]

/-- What the backward pass of a record has the solver at a position do, with its cuts. -/
def Record.sliced (gradients : DenseGradients α) :
    Record α → Nat → Option (Sliced (Procedure (Event α) (Solver α) (Error α) Unit))
  | .ascent record =>
    let layers := (Layout.ofSizes .layer record.sizes).spans
    let windows := record.realized.map (ReplayWindow.ofRun · record.tracked)
    assignedSliced (layers.zip windows) fun i share => Sliced.descendOne record
      (gradients.costs record.inputs.costs.lo.size) i share.1 share.2 0
  | .redistribution record =>
    assignedSliced (Layout.ofSizes .layer record.sizes).spans (Sliced.redistributeOneBackward
      record.inputs (gradients.branches record.inputs.lo.size))
  | .minMarginals record =>
    assignedSliced (Layout.ofSizes .layer record.sizes).spans (Sliced.minMarginalsOneBackward
      record.inputs (DenseGradients.orZeros gradients.values record.inputs.lo.size))
  | .perturbation record =>
    let layers := (Layout.ofSizes .layer record.sizes).spans
    let slots := (Layout.ofSizes .slot record.sizes).spans
    assignedSliced (layers.zip slots) fun i share => Sliced.perturbOneBackward record.inputs
      (gradients.branches record.inputs.costs.lo.size) i share.1 share.2
  | .bounds record =>
    let layers := (Layout.ofSizes .layer record.sizes).spans
    let bdds := Layout.ofSizes .bdd record.sizes
    assignedSliced (layers.zip bdds.spans) fun i share => Sliced.lowerBoundsOneBackward
      record.inputs (DenseGradients.orZeros gradients.values bdds.total) i share.1 share.2

/-- What a command has the solver at a position do, with its cuts, in a batch of these sizes and
with these records unused. -/
def Command.sliced (sizes : List Sizes) (record? : Nat → Option (Record α)) {β : Type} :
    Command α β → Nat → Option (Sliced (Procedure (Event α) (Solver α) (Error α) Unit))
  | .ascend inputs settings =>
    let bdds := Layout.ofSizes .bdd sizes
    let shares := (Layout.ofSizes .layer sizes).spans.zip bdds.spans
    assignedSliced shares fun i share => Sliced.ascendOne (inputs.map Buffer.elements) settings
      bdds.total i share.1 share.2
  | .redistribute costs =>
    assignedSliced (Layout.ofSizes .layer sizes).spans
      (Sliced.redistributeOne (costs.map Buffer.elements))
  | .minMarginals branches =>
    assignedSliced (Layout.ofSizes .layer sizes).spans
      (Sliced.minMarginalsOne (branches.map Buffer.elements))
  | .perturb inputs =>
    let shares := (Layout.ofSizes .layer sizes).spans.zip (Layout.ofSizes .slot sizes).spans
    assignedSliced shares fun i share => Sliced.perturbOne inputs.elements i share.1 share.2
  | .lowerBounds branches =>
    let bdds := Layout.ofSizes .bdd sizes
    let shares := (Layout.ofSizes .layer sizes).spans.zip bdds.spans
    assignedSliced shares fun i share => Sliced.lowerBoundsOne (branches.map Buffer.elements)
      bdds.total i share.1 share.2
  | .backward of gradients =>
    match record? of with
    | some record => record.sliced gradients.elements
    | none => fun _ => none
  | .round costs settings =>
    assignedSliced (Layout.ofSizes .layer sizes).spans
      (Sliced.roundOne (costs.map Buffer.elements) settings)
  | .solution branches =>
    assignedSliced (Layout.ofSizes .layer sizes).spans
      (Sliced.solutionOne (branches.map Buffer.elements))

/-- There is the record that the command sends gradients back through. -/
def Command.Finds (record? : Nat → Option (Record α)) : Command α β → Prop
  | .backward of _ => record? of ≠ none
  | _ => True

section Inside

variable {sizes : List Sizes} {i : Nat} (within : i < sizes.length)

include within

/-- Every solver has its part in the backward pass of a record that fits, and no cut of it is out of
range. -/
theorem Record.exists_sliced {record : Record α} (made : record.Made)
    {gradients : DenseGradients α} (fits : record.Fits sizes gradients) :
    ∃ part ∈ record.sliced gradients i, part.value = record.part gradients i ∧ part.Inside := by
  obtain ⟨layers, layers_at, layered⟩ := Layout.exists_span within .layer
  cases record with
  | ascent record =>
      obtain ⟨rfl, sized, outer⟩ := fits
      have count : i < (record.realized.map (ReplayWindow.ofRun · record.tracked)).length := by
        rw [List.length_map, made.length_realized]
        exact within
      dsimp only [sliced, part]
      refine exists_assignedSliced_zip layers_at (List.getElem?_eq_getElem count) ?_ ?_
      · exact Sliced.value_descendOne record _ i layers _ 0
      · exact Sliced.inside_descendOne layered sized outer i _ 0
  | redistribution record =>
      obtain ⟨rfl, sized, outer⟩ := fits
      exact exists_assignedSliced layers_at rfl
        (Sliced.inside_redistributeOneBackward layered sized outer i)
  | minMarginals record =>
      obtain ⟨rfl, sized, outer⟩ := fits
      exact exists_assignedSliced layers_at rfl
        (Sliced.inside_minMarginalsOneBackward layered sized outer i)
  | perturbation record =>
      obtain ⟨rfl, sized, change, outer⟩ := fits
      obtain ⟨slots, slots_at, slotted⟩ := Layout.exists_span within .slot
      dsimp only [sliced, part]
      refine exists_assignedSliced_zip layers_at slots_at ?_ ?_
      · rfl
      · exact Sliced.inside_perturbOneBackward layered sized slotted change outer i
  | bounds record =>
      obtain ⟨rfl, sized, outer⟩ := fits
      obtain ⟨chains, chains_at, chained⟩ := Layout.exists_span within .bdd
      rw [← Layout.total_ofSizes] at chained outer
      dsimp only [sliced, part]
      refine exists_assignedSliced_zip layers_at chains_at ?_ ?_
      · rfl
      · exact Sliced.inside_lowerBoundsOneBackward layered sized chained outer i

/-- Every solver has its part in a command that fits, and no cut of it is out of range. -/
theorem Command.exists_sliced {record? : Nat → Option (Record α)}
    (made : ∀ of record, record? of = some record → record.Made) {command : Command α β}
    (fits : command.Fits sizes record?)
    (finds : command.Finds record?) :
    ∃ part ∈ command.sliced sizes record? i,
      part.value = command.part sizes record? i ∧ part.Inside := by
  obtain ⟨layers, layers_at, layered⟩ := Layout.exists_span within .layer
  obtain ⟨chains, chains_at, chained⟩ := Layout.exists_span within .bdd
  rw [← Layout.total_ofSizes] at chained
  cases command with
  | ascend inputs settings =>
      dsimp only [sliced, part]
      refine exists_assignedSliced_zip layers_at chains_at ?_ ?_
      · exact Sliced.value_ascendOne _ settings _ i layers chains
      · exact Sliced.inside_ascendOne layered fits chained settings i
  | redistribute costs =>
      exact exists_assignedSliced layers_at rfl (Sliced.inside_redistributeOne layered fits i)
  | minMarginals branches =>
      exact exists_assignedSliced layers_at rfl (Sliced.inside_minMarginalsOne layered fits i)
  | perturb inputs =>
      obtain ⟨slots, slots_at, slotted⟩ := Layout.exists_span within .slot
      dsimp only [sliced, part]
      refine exists_assignedSliced_zip layers_at slots_at ?_ ?_
      · rfl
      · exact Sliced.inside_perturbOne layered fits.1 slotted fits.2 i
  | lowerBounds branches =>
      dsimp only [sliced, part]
      refine exists_assignedSliced_zip layers_at chains_at ?_ ?_
      · rfl
      · exact Sliced.inside_lowerBoundsOne layered fits chained i
  | backward of gradients =>
      rw [sliced, part]
      cases found : record? of with
      | none => exact absurd found finds
      | some record =>
          exact Record.exists_sliced within (made of record found) (fits record found)
  | round costs settings =>
      exact exists_assignedSliced layers_at rfl (Sliced.inside_roundOne layered fits settings i)
  | solution branches =>
      exact exists_assignedSliced layers_at rfl (Sliced.inside_solutionOne layered fits i)

end Inside

end Cuts

end DualAscent
