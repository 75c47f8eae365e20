import DualAscent.Operation.Ascend
import DualAscent.Operation.Perturb
import DualAscent.Proofs.Procedure

/-!
# Refused inputs

The checks that come before any solver is asked report four kinds of errors and no others: a buffer
is not densely packed, it has another length than a second one, the segments of the batch do not
cover it, or a solver no longer has its recorded sizes.
-/

namespace DualAscent

variable {α β γ σ : Type}

/-- The error says that inputs do not fit, among themselves or to the batch. -/
def Error.Refuses : Error α → Prop
  | format .. | shape .. | layoutMismatch .. | batchChanged _ => True
  | engine .. | nonFinite .. | misuse _ => False

/-- If the check fails, inputs do not fit. -/
def Refusing (check : Except (Error α) β) : Prop := ∀ e, check = .error e → e.Refuses

namespace Refusing

theorem ok (value : β) : Refusing (.ok value : Except (Error α) β) := by
  rintro _ ⟨⟩

theorem error {e : Error α} (refuses : e.Refuses) : Refusing (.error e : Except (Error α) β) := by
  rintro _ ⟨⟩
  exact refuses

theorem bind {check : Except (Error α) β} {next : β → Except (Error α) γ}
    (first : Refusing check) (rest : ∀ value, Refusing (next value)) :
    Refusing (check >>= next) := by
  cases check with
  | error e => exact .error (first e rfl)
  | ok value => exact rest value

theorem ite {condition : Prop} [Decidable condition] {check check' : Except (Error α) β}
    (refusing : Refusing check) (refusing' : Refusing check') :
    Refusing (if condition then check else check') := by
  split
  · exact refusing
  · exact refusing'

end Refusing

theorem refusing_requireSize (name : String) (values : Array α) (expected : Nat) :
    Refusing (requireSize name values expected) :=
  .ite (.ok ()) (.error trivial)

theorem refusing_require (layout : Layout) (length : Nat) :
    Refusing (layout.require length : Except (Error α) Unit) :=
  .ite (.ok ()) (.error trivial)

theorem Costs.refusing_requireAligned (costs : Costs (Array α)) : Refusing costs.requireAligned :=
  .bind (refusing_requireSize _ _ _) fun _ => refusing_requireSize _ _ _

section Dense

variable [Scalar α]

theorem Buffer.refusing_dense (name : String) (b : Buffer α) : Refusing (b.dense name) := by
  rw [Buffer.dense]
  split
  · exact .error trivial
  · exact .ok _

theorem Branches.refusing_dense (low high : String) (branches : Branches (Buffer α)) :
    Refusing (branches.dense low high) :=
  .bind (branches.lo.refusing_dense low) fun _ =>
    .bind (branches.hi.refusing_dense high) fun _ => .ok _

theorem Costs.refusing_dense (costs : Costs (Buffer α)) : Refusing costs.dense :=
  .bind (costs.toBranches.refusing_dense _ _) fun _ =>
    .bind (costs.deferred.refusing_dense _) fun _ => .ok _

theorem Damping.refusing_dense (damping : Damping α (Buffer α)) (layers : Nat) :
    Refusing (damping.dense layers) := by
  cases damping with
  | shared value => exact .ok _
  | perLayer b =>
      exact .bind (b.refusing_dense _) fun values =>
        .bind (refusing_requireSize _ values layers) fun _ => .ok _

variable [Zero α]

theorem refusing_incoming (name : String) (gradient : Option (Buffer α)) (length : Nat) :
    Refusing (incoming name gradient length) := by
  cases gradient with
  | none => exact .ok _
  | some b =>
      exact .bind (b.refusing_dense name) fun values =>
        .bind (refusing_requireSize name values length) fun _ => .ok _

end Dense

namespace Operation

variable [Scalar α]

theorem refusing_denseInputs (inputs : Inputs α (Buffer α)) : Refusing (denseInputs inputs) :=
  .bind inputs.costs.refusing_dense fun costs =>
    .bind (inputs.weights.refusing_dense _) fun weights =>
      .bind costs.refusing_requireAligned fun _ =>
        .bind (refusing_requireSize _ weights _) fun _ =>
          .bind (inputs.damping.refusing_dense _) fun _ => .ok _

theorem refusing_denseBranches (branches : Branches (Buffer α)) :
    Refusing (denseBranches branches) :=
  .bind (branches.refusing_dense _ _) fun _ => .bind (refusing_requireSize _ _ _) fun _ => .ok _

theorem refusing_densePerturbed (inputs : Perturbed (Buffer α)) :
    Refusing (densePerturbed inputs) :=
  .bind (inputs.change.refusing_dense _ _) fun _ => .bind (inputs.costs.refusing_dense _ _) fun _ =>
    .bind (refusing_requireSize _ _ _) fun _ => .bind (refusing_requireSize _ _ _) fun _ => .ok _

theorem refusing_incomingBranches [Zero α] (gradients : OutputGradients α) (length : Nat) :
    Refusing (incomingBranches gradients length) :=
  .bind (refusing_incoming _ _ _) fun _ => .bind (refusing_incoming _ _ _) fun _ => .ok _

end Operation

namespace Batch

variable [Engine α σ]

theorem refusing_ensureStable (b : Batch σ) : Refusing b.ensureStable := by
  rw [ensureStable]
  split
  · exact .error trivial
  · exact .ok ()

theorem refusing_ensureMatches (b : Batch σ) (recorded : List Sizes) :
    Refusing (b.ensureMatches recorded) := by
  refine .ite (.error trivial) ?_
  split
  · exact .error trivial
  · exact b.refusing_ensureStable

end Batch

end DualAscent
