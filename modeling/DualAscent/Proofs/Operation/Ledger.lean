import DualAscent.Operation.Extract
import DualAscent.Operation.LowerBounds
import DualAscent.Operation.MinMarginals
import DualAscent.Operation.Perturb
import DualAscent.Operation.Redistribute
import DualAscent.Proofs.Batch.View
import DualAscent.Proofs.Operation.Descend
import DualAscent.Proofs.Solver.Ledger

/-!
# What operations enter in the ledgers

Only a dual ascent and its backward pass touch the ledgers of a batch.  A dual ascent that is
answered enters one run for every solver; one that is refused enters none.
-/

namespace DualAscent

open Procedure Batch

variable {α β τ : Type} {view : Solver α → τ}

/-- The frozen sizes and the ledger of every solver. -/
abbrev Batch.ledgers : Batch (Solver α) → List (Sizes × Ledger) := views Solver.ledger

namespace Operation

variable [Scalar α] [Zero α] [Add α] [Sub α] [Mul α] [Neg α]

theorem fixes_request (blind : Solver.Blind view) {request : Request α β}
    (silent : request.routine.enters = false) (i : Nat) (context : Context α) :
    Fixes view (attempt i context request : Procedure _ (Solver α) _ β) :=
  fixes_attempt (Solver.fixes_serve blind silent) i context

section Recordless

variable (blind : Solver.Blind view)

include blind

theorem fixes_redistribute (costs : Costs (Buffer α)) :
    Fixes (views view) (redistribute costs : Work α (Solver α) _) := by
  refine (Fixes.lift _).bind fun costs => (Fixes.lift _).bind fun _ =>
    (fixes_resolve _ _).bind fun layers => Fixes.read.bind fun b => Fixes.bind ?_ fun _ => .pure _
  refine fixes_visit (fun i layers => (Fixes.log _).bind fun _ => ?_) _
  exact (fixes_request blind rfl i _).bind fun _ => (fixes_request blind rfl i _).bind fun _ =>
    fixes_request blind rfl i _

theorem fixes_redistributeBackward (record : Saved (Costs (Array α)))
    (gradients : OutputGradients α) :
    Fixes (views view) (redistributeBackward record gradients : Work α (Solver α) _) := by
  refine Fixes.read.bind fun b => (Fixes.lift _).bind fun _ => (Fixes.lift _).bind fun outer =>
    (Fixes.lift _).bind fun _ => Fixes.bind ?_ fun _ => (Fixes.lift _).bind fun _ => .pure _
  refine fixes_visit (fun i layers => ?_) _
  exact (fixes_request blind rfl i _).bind fun _ => fixes_request blind rfl i _

theorem fixes_minMarginals (branches : Branches (Buffer α)) :
    Fixes (views view) (minMarginals branches : Work α (Solver α) _) := by
  refine (Fixes.lift _).bind fun branches => (fixes_resolve _ _).bind fun layers =>
    Fixes.read.bind fun b => Fixes.bind ?_ fun _ => .pure _
  refine fixes_visit (fun i layers => (Fixes.log _).bind fun _ => ?_) _
  exact (fixes_request blind rfl i _).bind fun _ => fixes_request blind rfl i _

theorem fixes_minMarginalsBackward (record : Saved (Branches (Array α)))
    (gradients : OutputGradients α) :
    Fixes (views view) (minMarginalsBackward record gradients : Work α (Solver α) _) := by
  refine Fixes.read.bind fun b => (Fixes.lift _).bind fun _ => (Fixes.lift _).bind fun outer =>
    (Fixes.lift _).bind fun _ => Fixes.bind ?_ fun _ => (Fixes.lift _).bind fun _ => .pure _
  refine fixes_visit (fun i layers => ?_) _
  exact (fixes_request blind rfl i _).bind fun _ => fixes_request blind rfl i _

theorem fixes_perturb (inputs : Perturbed (Buffer α)) :
    Fixes (views view) (perturb inputs : Work α (Solver α) _) := by
  refine (Fixes.lift _).bind fun inputs => (fixes_resolve _ _).bind fun layers =>
    (fixes_resolve _ _).bind fun slots => Fixes.read.bind fun b => Fixes.bind ?_ fun _ => .pure _
  refine fixes_visit (fun i share => (Fixes.log _).bind fun _ => ?_) _
  exact (fixes_request blind rfl i _).bind fun _ => (fixes_request blind rfl i _).bind fun _ =>
    (fixes_request blind rfl i _).bind fun _ => .pure _

theorem fixes_perturbBackward (record : Saved (Perturbed (Array α)))
    (gradients : OutputGradients α) :
    Fixes (views view) (perturbBackward record gradients : Work α (Solver α) _) := by
  refine Fixes.read.bind fun b => (Fixes.lift _).bind fun _ => (Fixes.lift _).bind fun outer =>
    (Fixes.lift _).bind fun _ => (Fixes.lift _).bind fun _ => Fixes.bind ?_ fun _ =>
      (Fixes.lift _).bind fun _ => .pure _
  refine fixes_visit (fun i share => ?_) _
  exact (fixes_request blind rfl i _).bind fun _ => fixes_request blind rfl i _

theorem fixes_lowerBounds (branches : Branches (Buffer α)) :
    Fixes (views view) (lowerBounds branches : Work α (Solver α) _) := by
  refine (Fixes.lift _).bind fun branches => (fixes_resolve _ _).bind fun layers =>
    Fixes.read.bind fun b => (fixes_resolve _ _).bind fun bdds => Fixes.bind ?_ fun _ => .pure _
  refine fixes_visit (fun i share => (Fixes.log _).bind fun _ => ?_) _
  exact (fixes_request blind rfl i _).bind fun _ => fixes_request blind rfl i _

theorem fixes_lowerBoundsBackward (record : Saved (Branches (Array α)))
    (gradients : OutputGradients α) :
    Fixes (views view) (lowerBoundsBackward record gradients : Work α (Solver α) _) := by
  refine Fixes.read.bind fun b => (Fixes.lift _).bind fun _ => (Fixes.lift _).bind fun _ =>
    (Fixes.lift _).bind fun outer => Fixes.bind ?_ fun _ => (Fixes.lift _).bind fun _ => .pure _
  refine fixes_visit (fun i share => ?_) _
  exact (fixes_request blind rfl i _).bind fun _ => fixes_request blind rfl i _

theorem fixes_round (costs : Costs (Buffer α)) (settings : RoundingSettings α) :
    Fixes (views view) (round costs settings : Work α (Solver α) _) := by
  refine (Fixes.lift _).bind fun costs => (Fixes.lift _).bind fun _ =>
    (fixes_resolve _ _).bind fun layers => Fixes.bind ?_ fun _ =>
      (Fixes.log _).bind fun _ => .pure _
  refine fixes_visit (fun i layers => (Fixes.log _).bind fun _ => ?_) _
  exact (fixes_request blind rfl i _).bind fun _ => fixes_request blind rfl i _

theorem fixes_solution (branches : Branches (Buffer α)) :
    Fixes (views view) (solution branches : Work α (Solver α) _) := by
  refine (Fixes.lift _).bind fun branches => (fixes_resolve _ _).bind fun layers =>
    Fixes.bind ?_ fun _ => .pure _
  refine fixes_visit (fun i layers => ?_) _
  exact (fixes_request blind rfl i _).bind fun _ => fixes_request blind rfl i _

end Recordless

end Operation

end DualAscent
