import DualAscent.Proofs.Operation.Elements
import DualAscent.Proofs.Segment

/-!
# What can be wrong with a call

Checks read as conditions, each with the error that reports its violation.  A sequence of checks
reports the first condition that is violated, and goes on with the elements of the buffers if none
is.
-/

namespace DualAscent

variable {α β : Type}

/-- Violated if the buffer is not densely packed in single precision. -/
def Buffer.formatViolation (name : String) (b : Buffer α) : Option (Error α) :=
  b.formatFault?.map (.format name)

/-- Violated if the buffer has another number of elements. -/
def Buffer.lengthViolation (name : String) (b : Buffer α) (expected : Nat) : Option (Error α) :=
  if b.length = expected then none else some (.shape name expected b.length)

/-- The conditions on damping factors for so many layers. -/
def Damping.violations (layers : Nat) : Damping α (Buffer α) → List (Option (Error α))
  | .shared _ => []
  | .perLayer factors =>
    [factors.formatViolation "omega", factors.lengthViolation "omega" layers]

/-- The conditions on branch costs. -/
def Branches.violations (branches : Branches (Buffer α)) : List (Option (Error α)) :=
  [branches.lo.formatViolation "lo_costs", branches.hi.formatViolation "hi_costs",
    branches.hi.lengthViolation "hi_costs" branches.lo.length]

/-- The conditions on working costs. -/
def Costs.violations (costs : Costs (Buffer α)) : List (Option (Error α)) :=
  [costs.lo.formatViolation "lo_costs", costs.hi.formatViolation "hi_costs",
    costs.deferred.formatViolation "def_mm", costs.hi.lengthViolation "hi_costs" costs.lo.length,
    costs.deferred.lengthViolation "def_mm" costs.lo.length]

/-- The conditions on the inputs of a dual ascent. -/
def Inputs.violations (inputs : Inputs α (Buffer α)) : List (Option (Error α)) :=
  let costs := inputs.costs
  [costs.lo.formatViolation "lo_costs", costs.hi.formatViolation "hi_costs",
    costs.deferred.formatViolation "def_mm", inputs.weights.formatViolation "dist_weights",
    costs.hi.lengthViolation "hi_costs" costs.lo.length,
    costs.deferred.lengthViolation "def_mm" costs.lo.length,
    inputs.weights.lengthViolation "dist_weights" costs.lo.length] ++
  inputs.damping.violations costs.lo.length

/-- The conditions on perturbations and the costs under them. -/
def Perturbed.violations (inputs : Perturbed (Buffer α)) : List (Option (Error α)) :=
  [inputs.change.lo.formatViolation "lo_costs_pert",
    inputs.change.hi.formatViolation "hi_costs_pert",
    inputs.costs.lo.formatViolation "lo_costs", inputs.costs.hi.formatViolation "hi_costs",
    inputs.costs.hi.lengthViolation "hi_costs" inputs.costs.lo.length,
    inputs.change.hi.lengthViolation "hi_costs_pert" inputs.change.lo.length]

namespace Batch

variable {σ : Type} [Engine α σ]

/-- Violated by the first solver that no longer has its frozen sizes. -/
def changeViolation (b : Batch σ) : Option (Error α) :=
  (b.members.findIdx? fun member => Engine.sizes member.solver ≠ member.frozen).map .batchChanged

omit [Engine α σ] in
/-- Violated if the segments of the batch do not cover an array of this length. -/
def totalViolation (b : Batch σ) (kind : Segmentation) (length : Nat) : Option (Error α) :=
  if b.total kind = length then none else some (.layoutMismatch kind (b.total kind) length)

end Batch

/-- Fails for the first condition that is violated. -/
def report (violations : List (Option (Error α))) : Except (Error α) Unit :=
  match violations.findSome? id with
  | some e => .error e
  | none => .ok ()

theorem report_append (first second : List (Option (Error α))) :
    report (first ++ second) = report first >>= fun _ => report second := by
  rw [report, List.findSome?_append, report]
  cases first.findSome? id with
  | none => rfl
  | some e => rfl

theorem report_cons_cons (first second : Option (Error α)) (rest : List (Option (Error α))) :
    report (first :: second :: rest) = report [first] >>= fun _ => report (second :: rest) :=
  report_append [first] (second :: rest)

theorem report_eq_ok_iff {violations : List (Option (Error α))} :
    report violations = .ok () ↔ ∀ violation ∈ violations, violation = none := by
  have search : report violations = .ok () ↔ violations.findSome? id = none := by
    rw [report]
    cases violations.findSome? id with
    | none => simp
    | some e => simp
  rw [search, List.findSome?_eq_none_iff]
  rfl

section Checks

variable [Scalar α]

theorem Buffer.dense_eq (name : String) (b : Buffer α) :
    b.dense name = report [b.formatViolation name] >>= fun _ => .ok b.elements := by
  rw [dense, formatViolation]
  cases b.formatFault? with
  | none => rfl
  | some fault => rfl

theorem requireSize_elements (name : String) (b : Buffer α) (expected : Nat) :
    requireSize name b.elements expected = report [b.lengthViolation name expected] := by
  rw [requireSize, b.size_elements, Buffer.lengthViolation]
  split
  · rfl
  · rfl

theorem Damping.dense_eq (damping : Damping α (Buffer α)) (layers : Nat) :
    damping.dense layers =
      report (damping.violations layers) >>= fun _ => .ok (damping.map Buffer.elements) := by
  cases damping with
  | shared value => rfl
  | perLayer factors =>
      simp only [dense, violations, Buffer.dense_eq, bind_assoc, ok_bind, requireSize_elements,
        report_cons_cons]
      rfl

theorem Branches.dense_eq (low high : String) (branches : Branches (Buffer α)) :
    branches.dense low high =
      report [branches.lo.formatViolation low, branches.hi.formatViolation high] >>= fun _ =>
        .ok (branches.map Buffer.elements) := by
  simp only [dense, Buffer.dense_eq, bind_assoc, ok_bind, report_cons_cons]
  rfl

theorem Costs.dense_eq (costs : Costs (Buffer α)) :
    costs.dense = report [costs.lo.formatViolation "lo_costs", costs.hi.formatViolation "hi_costs",
      costs.deferred.formatViolation "def_mm"] >>= fun _ => .ok (costs.map Buffer.elements) := by
  simp only [dense, Branches.dense_eq, Buffer.dense_eq, bind_assoc, ok_bind, report_cons_cons]
  rfl

theorem Costs.requireAligned_elements (costs : Costs (Buffer α)) :
    (costs.map Buffer.elements).requireAligned =
      report [costs.hi.lengthViolation "hi_costs" costs.lo.length,
        costs.deferred.lengthViolation "def_mm" costs.lo.length] >>= fun _ => .ok () := by
  simp only [requireAligned, map, requireSize_elements, Buffer.size_elements, report_cons_cons]
  exact bind_pure_unit.symm

/-- Working costs are checked for their formats and then for their lengths. -/
theorem Costs.dense_aligned_eq (costs : Costs (Buffer α)) :
    (costs.dense >>= fun values => values.requireAligned >>= fun _ => .ok values) =
      report costs.violations >>= fun _ => .ok (costs.map Buffer.elements) := by
  simp only [dense_eq, bind_assoc, ok_bind, requireAligned_elements, violations, report_cons_cons]

namespace Operation

theorem denseBranches_eq (branches : Branches (Buffer α)) :
    denseBranches branches =
      report branches.violations >>= fun _ => .ok (branches.map Buffer.elements) := by
  simp only [denseBranches, Branches.dense_eq, Branches.violations, Branches.map, bind_assoc,
    ok_bind, requireSize_elements, Buffer.size_elements, report_cons_cons]
  rfl

theorem denseInputs_eq (inputs : Inputs α (Buffer α)) :
    denseInputs inputs =
      report inputs.violations >>= fun _ => .ok (inputs.map Buffer.elements) := by
  simp only [denseInputs, Costs.dense_eq, Costs.requireAligned, Buffer.dense_eq, Damping.dense_eq,
    Inputs.violations, Costs.map, bind_assoc, ok_bind, requireSize_elements, Buffer.size_elements,
    report_append, report_cons_cons]
  rfl

theorem densePerturbed_eq (inputs : Perturbed (Buffer α)) :
    densePerturbed inputs =
      report inputs.violations >>= fun _ => .ok inputs.elements := by
  simp only [densePerturbed, Branches.dense_eq, Perturbed.violations, Branches.map, bind_assoc,
    ok_bind, requireSize_elements, Buffer.size_elements, report_cons_cons]
  rfl

end Operation

end Checks

end DualAscent
