import DualAscent.Proofs.Batch.Family
import DualAscent.Proofs.Operation.Acceptance
import DualAscent.Proofs.Operation.Carried

/-!
# Answers of able solvers

Whether a batch answers a call, and what, is settled solver by solver.  A solver is able to serve a
routine if its deferred min-marginals are in place and it is not set up to fail there.
-/

namespace DualAscent

open Procedure Batch

namespace Operation

section Joined

variable {α σ : Type} [Zero α] {b : Batch σ} {kind : Segmentation}
  {size : Fin b.members.length → Nat} (long : ∀ i, (b.placeAt i kind).length = size i)

include long

theorem sized_joinBranches_ofFn (part : (i : Fin b.members.length) → Branches (Vector α (size i))) :
    (joinBranches (List.ofFn fun i => (part i).map Vector.toArray)).Sized
      (Sizes.total kind b.sizes) := by
  simp only [joinBranches, List.map_ofFn, Function.comp_def]
  exact ⟨size_joined_toArray long fun i => (part i).lo,
    size_joined_toArray long fun i => (part i).hi⟩

theorem sized_joinCosts_ofFn (part : (i : Fin b.members.length) → Costs (Vector α (size i))) :
    (joinCosts (List.ofFn fun i => (part i).map Vector.toArray)).Sized
      (Sizes.total kind b.sizes) := by
  simp only [joinCosts, List.map_ofFn, Function.comp_def]
  exact ⟨⟨size_joined_toArray long fun i => (part i).lo,
    size_joined_toArray long fun i => (part i).hi⟩,
      size_joined_toArray long fun i => (part i).deferred⟩

/-- Branch costs are joined from the families that they are cut to. -/
theorem joinBranches_fit {branches : Branches (Array α)}
    (sized : branches.Sized (Sizes.total kind b.sizes)) :
    joinBranches (List.ofFn fun i =>
      ((branches.map (b.placeAt i kind).slice).map (fit (size i))).map Vector.toArray) =
        branches := by
  simp only [joinBranches, List.map_ofFn, Function.comp_def, Branches.map,
    joined_fit sized.lo long, joined_fit sized.hi long]

/-- Working costs are joined from the families that they are cut to. -/
theorem joinCosts_fit {costs : Costs (Array α)} (sized : costs.Sized (Sizes.total kind b.sizes)) :
    joinCosts (List.ofFn fun i =>
      ((costs.map (b.placeAt i kind).slice).map (fit (size i))).map Vector.toArray) =
        costs := by
  simp only [joinCosts, List.map_ofFn, Function.comp_def, Costs.map, joined_fit sized.lo long,
    joined_fit sized.hi long, joined_fit sized.deferred long]

end Joined

end Operation

variable {α π β : Type} [Scalar α] [Zero α] [Add α] [Sub α] [Mul α] [Neg α] {b : Batch (Solver α)}

namespace Batch

section Places

variable (stable : b.Stable) (i : Fin b.members.length)

include stable

theorem Stable.length_placeAt (kind : Segmentation) :
    (b.placeAt i kind).length = (b.solverAt i).diagrams.sizes.segment kind :=
  (stable.place_at (List.getElem?_eq_getElem i.isLt) kind).1

theorem Stable.length_layers : (b.placeAt i .layer).length = (b.solverAt i).layers :=
  stable.length_placeAt i .layer

theorem Stable.length_bdds : (b.placeAt i .bdd).length = (b.solverAt i).bdds :=
  stable.length_placeAt i .bdd

theorem Stable.length_slots : (b.placeAt i .slot).length = (b.solverAt i).slots :=
  stable.length_placeAt i .slot

end Places

/-- All solvers have their frozen sizes and are able to serve the routine. -/
structure Able (b : Batch (Solver α)) (routine : Routine) : Prop where
  stable : b.Stable
  intact : ∀ i : Fin b.members.length, (b.solverAt i).intact = true
  healthy : ∀ i : Fin b.members.length, (b.solverAt i).failure ≠ some routine

end Batch

namespace Call

variable (call : Call α π β) (fits : call.Fits b.sizes) (separate : call.Separate)
  (stable : b.Stable)

include fits separate stable

/-- If it is known what each solver answers, so is what the batch does. -/
theorem result_perform {part : Fin b.members.length → π}
    (each : ∀ i : Fin b.members.length,
      ((call.one i (b.placeAt i)).run (b.solverAt i)).result = .ok (part i)) {answer : β}
    (finished : call.finish b.sizes (List.ofFn part) = .ok answer) :
    (call.perform.run b).result = .ok answer := by
  have visited : ((visit b.sizes fun i size => call.one i (place b.sizes i size)).run b).result =
      .ok (List.ofFn part) := visit_of_each each
  have answered : ((call.visits b.sizes).run b).result = .ok answer :=
    result_bind_eq_ok_iff.mpr ⟨_, visited, finished⟩
  exact ((ending_eq_iff.mp (ending_perform fits separate stable)).2 _).mpr answered

/-- Behind an answer of the batch there is one of each solver. -/
theorem exists_part {answer : β} (ok : (call.perform.run b).result = .ok answer)
    (i : Fin b.members.length) :
    ∃ part, ((call.one i (b.placeAt i)).run (b.solverAt i)).result = .ok part := by
  have visited := ((ending_eq_iff.mp (ending_perform fits separate stable)).2 _).mp ok
  obtain ⟨parts, visited, -⟩ := result_bind_eq_ok_iff.mp visited
  obtain ⟨moved, served⟩ := served_of_visit (by simp [sizes]) visited
  obtain ⟨part, -, answered, -⟩ :=
    served.get (getElem?_sizes_eq_some i) (List.getElem?_eq_getElem i.isLt)
  rw [Nat.zero_add] at answered
  exact ⟨part, answered⟩

end Call

omit [Zero α] [Add α] [Sub α] [Mul α] [Neg α] in
/-- Where no number is infinite or undefined, the last check passes. -/
theorem Call.finish_eq_ok [AllFinite α] [Zero α] (call : Call α π β) (sizes : List Sizes)
    (parts : List π) : call.finish sizes parts = .ok (call.answer sizes parts) := by
  rw [finish, Operation.requireFiniteArrays_eq_ok]
  rfl

omit [Scalar α] [Zero α] [Add α] [Sub α] [Mul α] [Neg α] in
/-- Inputs of a call that is answered passed the screening. -/
theorem accepted_of_ok {σ γ : Type} [Zero α] [Engine α σ] {b : Batch σ} {work : Work α σ γ}
    {value : γ} {part : Nat → Procedure (Event α) σ (Error α) Unit}
    {violations : List (Option (Error α))} {fits : Prop}
    (screens : Screens part violations b (work.run b).fate)
    (decides : Operation.Decides violations b fits) (ok : (work.run b).result = .ok value) :
    b.Stable ∧ fits := by
  obtain ⟨left, -, same⟩ := screens
  cases reported : report violations with
  | error e =>
      rw [screened_of_error reported, Outcome.fate, ok] at same
      cases congrArg Prod.snd same
  | ok _ => exact decides.accepts reported

/-- The routines that a solver can be set up to fail in. -/
def Routine.breakable : Routine → Bool
  | .distributeDelta | .minMarginals | .perturb | .lowerBounds | .rounding | .solution => true
  | _ => false

namespace Solver

variable {s : Solver α} {routine : Routine}

omit [Scalar α] [Zero α] [Add α] [Sub α] [Mul α] [Neg α] in
theorem checkFailure_eq_ok_iff : s.checkFailure routine = .ok () ↔ s.failure ≠ some routine := by
  rw [checkFailure]
  split
  · next fails => simp [fails]
  · next healthy => simp [healthy]

omit [Scalar α] [Zero α] [Add α] [Sub α] [Mul α] [Neg α] in
theorem healthy_of_guarded {rest : Solver α → Unit → Work α β} {value : β}
    (ok : ((do let s ← read; let checked ← lift (s.checkFailure routine); rest s checked :
      Work α β).run s).result = .ok value) : s.failure ≠ some routine := by
  rw [run_read_bind] at ok
  obtain ⟨_, healthy, -⟩ := result_lift_bind_eq_ok_iff.mp ok
  exact checkFailure_eq_ok_iff.mp healthy

/-- A request is not served by a solver that is set up to fail there. -/
theorem healthy_of_serve {request : Request α β} {value : β}
    (breakable : request.routine.breakable = true)
    (ok : ((serve request).run s).result = .ok value) : s.failure ≠ some request.routine := by
  cases request with
  | distributeDelta =>
      rw [serve_distributeDelta] at ok
      exact healthy_of_guarded ok
  | minMarginals room =>
      rw [serve_minMarginals, minMarginals_eq] at ok
      exact healthy_of_guarded ok
  | perturb change =>
      rw [serve_perturb] at ok
      exact healthy_of_guarded ok
  | lowerBounds room =>
      rw [serve_lowerBounds, lowerBounds_eq] at ok
      exact healthy_of_guarded ok
  | rounding settings =>
      rw [serve_rounding] at ok
      exact healthy_of_guarded ok
  | solution room =>
      rw [serve_solution, solution_eq] at ok
      exact healthy_of_guarded ok
  | _ => cases breakable

end Solver

namespace Operation

/-- Work that begins by binding costs needs a solver whose costs can be bound, and goes on with one
that is set up to fail in the same place. -/
theorem exists_bound {i : Nat} {context : Context α} {costs : Costs (Array α)} {s : Solver α}
    {next : Unit → Procedure (Event α) (Solver α) (Error α) β} {value : β}
    (ok : ((attempt i context (.setCosts costs) >>= next).run s).result = .ok value) :
    s.intact = true ∧ ∃ bound : Solver α, bound.failure = s.failure ∧
      ((next ()).run bound).result = .ok value := by
  obtain ⟨_, binding, rest⟩ := result_bind_eq_ok_iff.mp ok
  have kept : Fixes Solver.failure (attempt i context (.setCosts costs) :
      Procedure _ (Solver α) _ Unit) := fixes_request (fun _ _ => rfl) rfl i _
  exact ⟨Solver.intact_of_setCosts (result_attempt_eq_ok_iff.mp binding), _, kept s, rest⟩

end Operation

end DualAscent
