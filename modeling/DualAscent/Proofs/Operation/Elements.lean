import DualAscent.Proofs.Operation.Call
import DualAscent.Proofs.Procedure

/-!
# Elements of accepted inputs

Checks do not change what they accept: the arrays that an operation goes on with hold the elements
of the buffers it was given, and zeros for gradients that were left out.
-/

namespace DualAscent

variable {α : Type} [Scalar α]

/-- The elements of gradients, whatever their format. -/
def OutputGradients.elements (gradients : OutputGradients α) : DenseGradients α where
  lo := gradients.lo.map Buffer.elements
  hi := gradients.hi.map Buffer.elements
  deferred := gradients.deferred.map Buffer.elements
  average := gradients.average.map Buffer.elements
  values := gradients.values.map Buffer.elements

/-- The elements of perturbations and costs, whatever their format. -/
def Perturbed.elements (inputs : Perturbed (Buffer α)) : Perturbed (Array α) :=
  ⟨inputs.change.map Buffer.elements, inputs.costs.map Buffer.elements⟩

theorem Buffer.elements_of_dense {name : String} {b : Buffer α} {values : Array α}
    (dense : b.dense name = .ok values) : values = b.elements := by
  rw [Buffer.dense] at dense
  split at dense
  · cases dense
  · cases dense
    rfl

theorem Branches.elements_of_dense {low high : String} {branches : Branches (Buffer α)}
    {values : Branches (Array α)} (dense : branches.dense low high = .ok values) :
    values = branches.map Buffer.elements := by
  obtain ⟨lo, lo_dense, dense⟩ := bind_eq_ok_iff.mp dense
  obtain ⟨hi, hi_dense, same⟩ := bind_eq_ok_iff.mp dense
  cases same
  rw [Buffer.elements_of_dense lo_dense, Buffer.elements_of_dense hi_dense]
  rfl

theorem Costs.elements_of_dense {costs : Costs (Buffer α)} {values : Costs (Array α)}
    (dense : costs.dense = .ok values) : values = costs.map Buffer.elements := by
  obtain ⟨branches, branches_dense, dense⟩ := bind_eq_ok_iff.mp dense
  obtain ⟨deferred, deferred_dense, same⟩ := bind_eq_ok_iff.mp dense
  cases same
  rw [Branches.elements_of_dense branches_dense, Buffer.elements_of_dense deferred_dense]
  rfl

theorem Damping.elements_of_dense {damping : Damping α (Buffer α)} {layers : Nat}
    {values : Damping α (Array α)} (dense : damping.dense layers = .ok values) :
    values = damping.map Buffer.elements := by
  cases damping with
  | shared value =>
      cases dense
      rfl
  | perLayer b =>
      obtain ⟨entries, entries_dense, dense⟩ := bind_eq_ok_iff.mp dense
      obtain ⟨_, -, same⟩ := bind_eq_ok_iff.mp dense
      cases same
      rw [Buffer.elements_of_dense entries_dense]
      rfl

@[simp]
theorem Branches.elements_ofArray (branches : Branches (Array α)) :
    (branches.map Buffer.ofArray).map Buffer.elements = branches := by
  simp only [Branches.map, Buffer.elements_ofArray]

@[simp]
theorem Costs.elements_ofArray (costs : Costs (Array α)) :
    (costs.map Buffer.ofArray).map Buffer.elements = costs := by
  simp only [Costs.map, Buffer.elements_ofArray]

namespace Operation

theorem elements_of_denseInputs {inputs : Inputs α (Buffer α)} {values : Inputs α (Array α)}
    (dense : denseInputs inputs = .ok values) : values = inputs.map Buffer.elements := by
  obtain ⟨costs, costs_dense, dense⟩ := bind_eq_ok_iff.mp dense
  obtain ⟨weights, weights_dense, dense⟩ := bind_eq_ok_iff.mp dense
  obtain ⟨_, -, dense⟩ := bind_eq_ok_iff.mp dense
  obtain ⟨_, -, dense⟩ := bind_eq_ok_iff.mp dense
  obtain ⟨damping, damping_dense, same⟩ := bind_eq_ok_iff.mp dense
  cases same
  rw [Costs.elements_of_dense costs_dense, Buffer.elements_of_dense weights_dense,
    Damping.elements_of_dense damping_dense]
  rfl

theorem elements_of_denseBranches {branches : Branches (Buffer α)} {values : Branches (Array α)}
    (dense : denseBranches branches = .ok values) : values = branches.map Buffer.elements := by
  obtain ⟨_, branches_dense, dense⟩ := bind_eq_ok_iff.mp dense
  obtain ⟨_, -, same⟩ := bind_eq_ok_iff.mp dense
  cases same
  exact Branches.elements_of_dense branches_dense

theorem elements_of_densePerturbed {inputs : Perturbed (Buffer α)}
    {values : Perturbed (Array α)} (dense : densePerturbed inputs = .ok values) :
    values = inputs.elements := by
  obtain ⟨change, change_dense, dense⟩ := bind_eq_ok_iff.mp dense
  obtain ⟨costs, costs_dense, dense⟩ := bind_eq_ok_iff.mp dense
  obtain ⟨_, -, dense⟩ := bind_eq_ok_iff.mp dense
  obtain ⟨_, -, same⟩ := bind_eq_ok_iff.mp dense
  cases same
  rw [Branches.elements_of_dense change_dense, Branches.elements_of_dense costs_dense]
  rfl

variable [Zero α]

theorem elements_of_incoming {name : String} {gradient : Option (Buffer α)} {length : Nat}
    {values : Array α} (accepted : incoming name gradient length = .ok values) :
    values = DenseGradients.orZeros (gradient.map Buffer.elements) length := by
  cases gradient with
  | none =>
      cases accepted
      rfl
  | some b =>
      obtain ⟨elements, dense, accepted⟩ := bind_eq_ok_iff.mp accepted
      obtain ⟨_, -, same⟩ := bind_eq_ok_iff.mp accepted
      cases same
      exact Buffer.elements_of_dense dense

/-- A gradient with gaps has the elements that it has without them. -/
theorem elements_of_incoming_packed {name : String} {gradient : Option (Buffer α)} {length : Nat}
    {values : Array α}
    (accepted : incoming name (gradient.map fun values =>
      if values.isContiguous then values else values.packed) length = .ok values) :
    values = DenseGradients.orZeros (gradient.map Buffer.elements) length := by
  refine (elements_of_incoming accepted).trans (congrArg (DenseGradients.orZeros · _) ?_)
  rw [Option.map_map]
  refine congrArg (Option.map · gradient) (funext fun values => ?_)
  show (if values.isContiguous then values else values.packed).elements = values.elements
  split
  · rfl
  · exact values.elements_packed

theorem elements_of_incomingBranches {gradients : OutputGradients α} {length : Nat}
    {branches : Branches (Array α)} (accepted : incomingBranches gradients length = .ok branches) :
    branches = gradients.elements.branches length := by
  obtain ⟨lo, low, accepted⟩ := bind_eq_ok_iff.mp accepted
  obtain ⟨hi, high, same⟩ := bind_eq_ok_iff.mp accepted
  cases same
  rw [elements_of_incoming low, elements_of_incoming high]
  rfl

end Operation

end DualAscent
