import DualAscent.Proofs.Operation.Acceptance
import DualAscent.Proofs.Operation.Excuses
import DualAscent.Proofs.Session.Aftermath
import DualAscent.Proofs.Session.Records

/-!
# Commands that fit a batch

A command that is not refused cuts arrays that have a segment for every solver, and the segments
have the lengths that the solvers expect.  What it has each of them do then fails for no other
reasons than the solver has of its own.
-/

namespace DualAscent

open Procedure Batch

variable {α β γ : Type}

namespace Batch

variable {b : Batch (Solver α)} {i : Nat} {member : Member (Solver α)}

theorem getElem?_spans (found : b.members[i]? = some member) (kind : Segmentation) :
    (Layout.ofSizes kind b.sizes).spans[i]? = some (place b.sizes i member.frozen kind) := by
  rw [Layout.spans_ofSizes, List.getElem?_mapIdx, getElem?_sizes found]
  rfl

theorem assigned_spans (found : b.members[i]? = some member) (kind : Segmentation)
    (work : Nat → Span → Procedure (Event α) (Solver α) (Error α) γ) :
    assigned (Layout.ofSizes kind b.sizes).spans work i =
      (fun _ => ()) <$> work i (place b.sizes i member.frozen kind) := by
  rw [assigned, getElem?_spans found]

theorem assigned_zip (found : b.members[i]? = some member) (kind kind' : Segmentation)
    (work : Nat → Span × Span → Procedure (Event α) (Solver α) (Error α) γ) :
    assigned ((Layout.ofSizes kind b.sizes).spans.zip (Layout.ofSizes kind' b.sizes).spans) work i =
      (fun _ => ()) <$>
        work i (place b.sizes i member.frozen kind, place b.sizes i member.frozen kind') := by
  have zipped := List.getElem?_zip_eq_some (z := (_, _)).mpr
    ⟨getElem?_spans found kind, getElem?_spans found kind'⟩
  rw [assigned, zipped]
  rfl

section Success

variable {t : Solver α}

theorem exists_of_assigned_spans (found : b.members[i]? = some member) {kind : Segmentation}
    {work : Nat → Span → Procedure (Event α) (Solver α) (Error α) γ}
    (ok : ((assigned (Layout.ofSizes kind b.sizes).spans work i).run t).result = .ok ()) :
    ∃ value, ((work i (place b.sizes i member.frozen kind)).run t).result = .ok value := by
  rw [assigned_spans found] at ok
  obtain ⟨value, ok, -⟩ := result_map_eq_ok_iff.mp ok
  exact ⟨value, ok⟩

theorem exists_of_assigned_zip (found : b.members[i]? = some member) {kind kind' : Segmentation}
    {work : Nat → Span × Span → Procedure (Event α) (Solver α) (Error α) γ}
    (ok : ((assigned ((Layout.ofSizes kind b.sizes).spans.zip
      (Layout.ofSizes kind' b.sizes).spans) work i).run t).result = .ok ()) :
    ∃ value, ((work i (place b.sizes i member.frozen kind,
      place b.sizes i member.frozen kind')).run t).result = .ok value := by
  rw [assigned_zip found] at ok
  obtain ⟨value, ok, -⟩ := result_map_eq_ok_iff.mp ok
  exact ⟨value, ok⟩

end Success

end Batch

variable [Scalar α] [Zero α] [Add α] [Sub α] [Mul α] [Neg α]

/-- The record names these sizes, and the arrays that its backward pass cuts have a segment for
every solver of them. -/
def Record.Fits (sizes : List Sizes) (gradients : DenseGradients α) : Record α → Prop
  | .ascent record => record.sizes = sizes ∧ record.inputs.Sized (Sizes.total .layer sizes) ∧
      (gradients.costs record.inputs.costs.lo.size).Sized (Sizes.total .layer sizes)
  | .redistribution record => record.sizes = sizes ∧
      record.inputs.Sized (Sizes.total .layer sizes) ∧
      (gradients.branches record.inputs.lo.size).Sized (Sizes.total .layer sizes)
  | .minMarginals record => record.sizes = sizes ∧
      record.inputs.Sized (Sizes.total .layer sizes) ∧
      (DenseGradients.orZeros gradients.values record.inputs.lo.size).size =
        Sizes.total .layer sizes
  | .perturbation record => record.sizes = sizes ∧
      record.inputs.costs.Sized (Sizes.total .layer sizes) ∧
      record.inputs.change.Sized (Sizes.total .slot sizes) ∧
      (gradients.branches record.inputs.costs.lo.size).Sized (Sizes.total .layer sizes)
  | .bounds record => record.sizes = sizes ∧ record.inputs.Sized (Sizes.total .layer sizes) ∧
      (DenseGradients.orZeros gradients.values (Layout.ofSizes .bdd record.sizes).total).size =
        Sizes.total .bdd sizes

/-- The arrays that a command cuts have a segment for every solver of these sizes. -/
def Command.Fits (sizes : List Sizes) (record? : Nat → Option (Record α)) :
    Command α β → Prop
  | .ascend inputs _ => (inputs.map Buffer.elements).Sized (Sizes.total .layer sizes)
  | .redistribute costs | .round costs _ =>
    (costs.map Buffer.elements).Sized (Sizes.total .layer sizes)
  | .minMarginals branches | .lowerBounds branches | .solution branches =>
    (branches.map Buffer.elements).Sized (Sizes.total .layer sizes)
  | .perturb inputs => inputs.elements.costs.Sized (Sizes.total .layer sizes) ∧
      inputs.elements.change.Sized (Sizes.total .slot sizes)
  | .backward of gradients => ∀ record ∈ record? of, record.Fits sizes gradients.elements

theorem Record.fits_or_refused {record : Record α} (made : record.Made) (b : Batch (Solver α))
    (gradients : OutputGradients α) :
    Operation.Refused ((Session.descend record gradients).run b).result ∨
      b.Stable ∧ record.Fits b.sizes gradients.elements := by
  cases made with
  | @ascent _ _ _ _ record ok =>
      rw [Session.descend, result_map, Operation.refused_map_iff]
      refine (Operation.accepted_ascendBackward b gradients record).imp_right ?_
      rintro ⟨⟨same, stable⟩, covers, outer⟩
      have sized := Operation.sized_of_denseInputs (Operation.denseInputs_of_ascend ok)
      refine ⟨stable, same.symm, ?_⟩
      rw [covers, ← same] at sized outer ⊢
      exact ⟨sized, outer⟩
  | @redistribution _ _ _ record ok =>
      rw [Session.descend, result_map, Operation.refused_map_iff]
      refine (Operation.accepted_redistributeBackward b gradients record).imp_right ?_
      rintro ⟨⟨same, stable⟩, covers, outer⟩
      have sized := Operation.sized_of_redistribute ok
      refine ⟨stable, same.symm, ?_⟩
      rw [covers, ← same] at sized outer ⊢
      exact ⟨sized, outer⟩
  | @minMarginals _ _ _ record ok =>
      rw [Session.descend, result_map, Operation.refused_map_iff]
      refine (Operation.accepted_minMarginalsBackward b gradients record).imp_right ?_
      rintro ⟨⟨same, stable⟩, covers, outer⟩
      have sized := Operation.sized_of_minMarginals ok
      refine ⟨stable, same.symm, ?_⟩
      rw [covers, ← same] at sized outer ⊢
      exact ⟨sized, outer⟩
  | @perturbation _ _ _ record ok =>
      rw [Session.descend, result_map, Operation.refused_map_iff]
      refine (Operation.accepted_perturbBackward b gradients record).imp_right ?_
      rintro ⟨⟨same, stable⟩, covers, change, outer⟩
      obtain ⟨sized, wide⟩ := Operation.sized_of_perturb ok
      refine ⟨stable, same.symm, ?_⟩
      rw [covers, ← same] at sized outer ⊢
      rw [change, ← same] at wide
      exact ⟨sized, wide, outer⟩
  | @bounds _ _ _ record ok =>
      rw [Session.descend, result_map, Operation.refused_map_iff]
      refine (Operation.accepted_lowerBoundsBackward b gradients record).imp_right ?_
      rintro ⟨⟨same, stable⟩, covers, outer⟩
      have sized := Operation.sized_of_lowerBounds ok
      rw [covers, ← same] at sized
      refine ⟨stable, same.symm, sized, outer.trans ?_⟩
      rw [Layout.total_ofSizes, same]

section Assigned

variable {b : Batch (Solver α)} {i : Nat} {member : Member (Solver α)}
  (found : b.members[i]? = some member) {known : Standing} {able : Prop}
  {allowed : EngineError → Prop}

include found

omit [Scalar α] [Zero α] [Add α] [Sub α] [Mul α] [Neg α] in
theorem Excused.assigned_spans {kind : Segmentation}
    {work : Nat → Span → Procedure (Event α) (Solver α) (Error α) γ}
    (excused : Excused known able allowed (work i (place b.sizes i member.frozen kind))) :
    Excused known able allowed (assigned (Layout.ofSizes kind b.sizes).spans work i) := by
  rw [Batch.assigned_spans found]
  exact excused.map _

omit [Scalar α] [Zero α] [Add α] [Sub α] [Mul α] [Neg α] in
theorem Excused.assigned_zip {kind kind' : Segmentation}
    {work : Nat → Span × Span → Procedure (Event α) (Solver α) (Error α) γ}
    (excused : Excused known able allowed (work i (place b.sizes i member.frozen kind,
      place b.sizes i member.frozen kind'))) :
    Excused known able allowed (assigned ((Layout.ofSizes kind b.sizes).spans.zip
      (Layout.ofSizes kind' b.sizes).spans) work i) := by
  rw [Batch.assigned_zip found]
  exact excused.map _

end Assigned

/-- Once its inputs are accepted, nothing but the standing of the solvers decides whether the
command succeeds: it is neither a rounding nor a backward pass. -/
def Command.Certain : Command α β → Prop
  | .backward .. | .round .. => False
  | _ => True

/-- A solver of this standing has what its part of the command takes: deferred min-marginals that
are in place, and memory for what the command has it sum up and record. -/
def Command.Affordable (standing : Standing) : Command α β → Prop
  | .ascend _ settings => standing.intact = true ∧
      (settings.summarises = true → fitsMemory (settings.window + 1) Solver.stepBytes = true) ∧
      ((standing.limit.map (min · settings.iterations)).getD settings.iterations = 0 ∨
        fitsMemory standing.diagrams.slots Solver.sumBytes = true)
  | .round .. => standing.intact = true ∧
      fitsMemory standing.diagrams.slots Solver.countBytes = true
  | _ => standing.intact = true

section Excused

variable {b : Batch (Solver α)} (stable : b.Stable) {i : Nat} {member : Member (Solver α)}
  (found : b.members[i]? = some member) {allowed : EngineError → Prop}
  (injected : ∀ routine, member.solver.failure = some routine → allowed (.injected routine))

include stable found injected

theorem Record.excused_part {record : Record α} {gradients : DenseGradients α}
    (fits : record.Fits b.sizes gradients)
    (replays : ∀ skip tracked run, allowed (.inconsistentReplay skip tracked run)) :
    Excused member.solver.standing (member.solver.standing.intact = true) allowed
      (record.part gradients i) := by
  obtain ⟨long, inside⟩ := stable.place_at found .layer
  obtain ⟨few, within⟩ := stable.place_at found .bdd
  obtain ⟨wide, -⟩ := stable.place_at found .slot
  cases record with
  | ascent record =>
      obtain ⟨same, sized, outer⟩ := fits
      dsimp only [part]
      rw [same, assigned]
      split
      · next share shared =>
          obtain ⟨placed, -⟩ := List.getElem?_zip_eq_some.mp shared
          rw [← Option.some.inj ((getElem?_spans found .layer).symm.trans placed)]
          exact (Operation.excused_descendOne id injected long inside i sized outer replays _
            0).map _
      · exact .pure ()
  | redistribution record =>
      obtain ⟨same, sized, outer⟩ := fits
      dsimp only [part]
      rw [same]
      exact .assigned_spans found
        (Operation.excused_redistributeOneBackward id injected long inside i sized outer)
  | minMarginals record =>
      obtain ⟨same, sized, outer⟩ := fits
      dsimp only [part]
      rw [same]
      exact .assigned_spans found
        (Operation.excused_minMarginalsOneBackward id injected long inside i sized outer)
  | perturbation record =>
      obtain ⟨same, sized, -, outer⟩ := fits
      dsimp only [part]
      rw [same]
      exact .assigned_zip found
        (Operation.excused_perturbOneBackward id injected long inside i sized wide outer)
  | bounds record =>
      obtain ⟨same, sized, outer⟩ := fits
      dsimp only [part]
      rw [same] at outer ⊢
      exact .assigned_zip found
        (Operation.excused_lowerBoundsOneBackward id injected long inside i sized few outer within)

theorem Command.excused_part {command : Command α β} {record? : Nat → Option (Record α)}
    (fits : command.Fits b.sizes record?)
    (own : ¬command.Certain → (∀ n, allowed (.noAgreement n)) ∧
      ∀ skip tracked run, allowed (.inconsistentReplay skip tracked run)) :
    Excused member.solver.standing (command.Affordable member.solver.standing) allowed
      (command.part b.sizes record? i) := by
  obtain ⟨long, inside⟩ := stable.place_at found .layer
  obtain ⟨few, -⟩ := stable.place_at found .bdd
  obtain ⟨wide, within⟩ := stable.place_at found .slot
  cases command with
  | ascend inputs settings =>
      exact .assigned_zip found
        (Operation.excused_ascendOne And.left injected long inside i fits few
          (fun can => can.2.1) (fun can => can.2.2))
  | redistribute costs =>
      exact .assigned_spans found
        (Operation.excused_redistributeOne id injected long inside i fits)
  | minMarginals branches =>
      exact .assigned_spans found
        (Operation.excused_minMarginalsOne id injected long inside i fits)
  | perturb inputs =>
      exact .assigned_zip found
        (Operation.excused_perturbOne id injected long inside i fits.1 fits.2 wide within)
  | lowerBounds branches =>
      exact .assigned_zip found
        (Operation.excused_lowerBoundsOne id injected long inside i fits few)
  | backward of gradients =>
      rw [part]
      cases recorded : record? of with
      | some record =>
          exact record.excused_part stable found injected (fits record recorded) (own id).2
      | none => exact .pure ()
  | round costs settings =>
      exact .assigned_spans found (Operation.excused_roundOne And.left injected long inside i fits
        And.right (own id).1)
  | solution branches =>
      exact .assigned_spans found
        (Operation.excused_solutionOne id injected long inside i fits)

end Excused

end DualAscent
