import DualAscent.Operation.Extract
import DualAscent.Operation.LowerBounds
import DualAscent.Operation.MinMarginals
import DualAscent.Operation.Perturb
import DualAscent.Operation.Redistribute
import DualAscent.Proofs.Batch.Place
import DualAscent.Proofs.Operation.Descend

/-!
# Calls on flat arrays

The batched operations on densely packed arrays, as data.  A call can be cut to the share of one
solver, and so can its answer.
-/

namespace DualAscent

/-- Applies a function to both containers. -/
def Branches.map {τ υ : Type} (f : τ → υ) (branches : Branches τ) : Branches υ :=
  ⟨f branches.lo, f branches.hi⟩

/-- Gradients in densely packed arrays; a missing one counts as zero. -/
structure DenseGradients (α : Type) where
  /-- Of the low branch costs. -/
  lo : Option (Array α)
  /-- Of the high branch costs. -/
  hi : Option (Array α)
  /-- Of the deferred min-marginals. -/
  deferred : Option (Array α)
  /-- Of the averaged solution. -/
  average : Option (Array α)
  /-- Of the only output of an operation that has one output. -/
  values : Option (Array α)

/-- A batched operation with its arguments, indexed by what one solver answers and by the answer
of the batch. -/
inductive Call (α : Type) : Type → Type → Type where
  /-- Runs dual iterations. -/
  | ascend (inputs : Inputs α (Array α)) (settings : AscentSettings α) :
      Call α (Realized α × Costs (Array α)) (Ascended α × AscentRecord α)
  /-- Redistributes deferred min-marginals. -/
  | redistribute (costs : Costs (Array α)) :
      Call α (Costs (Array α)) (Costs (Array α) × Saved (Costs (Array α)))
  /-- Computes min-marginal differences. -/
  | minMarginals (branches : Branches (Array α)) :
      Call α (Array α) (Array α × Saved (Branches (Array α)))
  /-- Perturbs costs per variable. -/
  | perturb (inputs : Perturbed (Array α)) :
      Call α (Branches (Array α)) (Branches (Array α) × Saved (Perturbed (Array α)))
  /-- Computes lower bounds. -/
  | lowerBounds (branches : Branches (Array α)) :
      Call α (Array α) (Array α × Saved (Branches (Array α)))
  /-- Sends gradients back through dual iterations. -/
  | ascendBackward (record : AscentRecord α) (gradients : DenseGradients α) :
      Call α (Inputs α (Array α)) (Inputs α (Array α))
  /-- Sends gradients back through a redistribution. -/
  | redistributeBackward (record : Saved (Costs (Array α))) (gradients : DenseGradients α) :
      Call α (Array α) (Costs (Array α))
  /-- Sends gradients back through min-marginal differences. -/
  | minMarginalsBackward (record : Saved (Branches (Array α))) (gradients : DenseGradients α) :
      Call α (Branches (Array α)) (Branches (Array α))
  /-- Sends gradients back through a perturbation. -/
  | perturbBackward (record : Saved (Perturbed (Array α))) (gradients : DenseGradients α) :
      Call α (Branches (Array α)) (Perturbed (Array α))
  /-- Sends gradients back through lower bounds. -/
  | lowerBoundsBackward (record : Saved (Branches (Array α))) (gradients : DenseGradients α) :
      Call α (Branches (Array α)) (Branches (Array α))
  /-- Rounds to assignments of the variables. -/
  | round (costs : Costs (Array α)) (settings : RoundingSettings α) :
      Call α (Rounding α) (List (Rounding α))
  /-- Reads off the branch choices. -/
  | solution (branches : Branches (Array α)) : Call α (Array α) (Array α)

namespace DenseGradients

variable {α : Type}

/-- The gradients as buffers. -/
def buffers (gradients : DenseGradients α) : OutputGradients α where
  lo := gradients.lo.map .ofArray
  hi := gradients.hi.map .ofArray
  deferred := gradients.deferred.map .ofArray
  average := gradients.average.map .ofArray
  values := gradients.values.map .ofArray

/-- The segments of one solver; those of the only output count something of their own. -/
def cut (gradients : DenseGradients α) (place : Segmentation → Span) (kind : Segmentation) :
    DenseGradients α where
  lo := gradients.lo.map (place .layer).slice
  hi := gradients.hi.map (place .layer).slice
  deferred := gradients.deferred.map (place .layer).slice
  average := gradients.average.map (place .layer).slice
  values := gradients.values.map (place kind).slice

/-- The arrays that are there have a segment for every solver. -/
structure Fits (gradients : DenseGradients α) (kind : Segmentation) (sizes : List Sizes) :
    Prop where
  lo : ∀ values ∈ gradients.lo, values.size = Sizes.total .layer sizes
  hi : ∀ values ∈ gradients.hi, values.size = Sizes.total .layer sizes
  deferred : ∀ values ∈ gradients.deferred, values.size = Sizes.total .layer sizes
  values : ∀ values ∈ gradients.values, values.size = Sizes.total kind sizes

variable [Zero α]

/-- An array that may be missing, with zeros in its place. -/
def orZeros (values : Option (Array α)) (length : Nat) : Array α :=
  values.getD (Array.replicate length 0)

/-- The gradients of both branch costs. -/
def branches (gradients : DenseGradients α) (length : Nat) : Branches (Array α) :=
  ⟨orZeros gradients.lo length, orZeros gradients.hi length⟩

/-- The gradients of costs. -/
def costs (gradients : DenseGradients α) (length : Nat) : Costs (Array α) :=
  ⟨gradients.branches length, orZeros gradients.deferred length⟩

end DenseGradients

namespace Call

variable {α π β : Type}

/-- The record of one solver. -/
def cutRecord {ι : Type} (record : Saved ι) (f : ι → ι) (size : Sizes) : Saved ι :=
  ⟨f record.inputs, [size]⟩

/-- The segments of one solver of perturbations and costs. -/
def cutPerturbed (place : Segmentation → Span) (inputs : Perturbed (Array α)) :
    Perturbed (Array α) :=
  ⟨inputs.change.map (place .slot).slice, inputs.costs.map (place .layer).slice⟩

/-- The record of one solver's dual ascent. -/
def cutAscent (record : AscentRecord α) (place : Segmentation → Span) (i : Nat) (size : Sizes) :
    AscentRecord α where
  inputs := record.inputs.map (place .layer).slice
  sizes := [size]
  realized := record.realized[i]?.toList
  tracked := record.tracked
  caches := record.caches

/-- The call on the share of the `i`-th solver. -/
def cut (place : Segmentation → Span) (i : Nat) (size : Sizes) : Call α π β → Call α π β
  | ascend inputs settings => ascend (inputs.map (place .layer).slice) settings
  | redistribute costs => redistribute (costs.map (place .layer).slice)
  | minMarginals branches => minMarginals (branches.map (place .layer).slice)
  | perturb inputs => perturb (cutPerturbed place inputs)
  | lowerBounds branches => lowerBounds (branches.map (place .layer).slice)
  | ascendBackward record gradients =>
    ascendBackward (cutAscent record place i size) (gradients.cut place .layer)
  | redistributeBackward record gradients =>
    redistributeBackward (cutRecord record (·.map (place .layer).slice) size)
      (gradients.cut place .layer)
  | minMarginalsBackward record gradients =>
    minMarginalsBackward (cutRecord record (·.map (place .layer).slice) size)
      (gradients.cut place .layer)
  | perturbBackward record gradients =>
    perturbBackward (cutRecord record (cutPerturbed place) size) (gradients.cut place .layer)
  | lowerBoundsBackward record gradients =>
    lowerBoundsBackward (cutRecord record (·.map (place .layer).slice) size)
      (gradients.cut place .bdd)
  | round costs settings => round (costs.map (place .layer).slice) settings
  | solution branches => solution (branches.map (place .layer).slice)

/-- The share of the `i`-th solver of an answer. -/
def cutAnswer (place : Segmentation → Span) (i : Nat) (size : Sizes) : Call α π β → β → β
  | ascend .., (ascended, record) =>
    (⟨ascended.costs.map (place .layer).slice, ascended.realized[i]?.toList,
        ascended.trend.map fun trend => ⟨(place .layer).slice trend.average,
          (place .bdd).slice trend.first, (place .bdd).slice trend.second⟩⟩,
      cutAscent record place i size)
  | redistribute _, (costs, record) =>
    (costs.map (place .layer).slice, cutRecord record (·.map (place .layer).slice) size)
  | minMarginals _, (values, record) =>
    ((place .layer).slice values, cutRecord record (·.map (place .layer).slice) size)
  | perturb _, (branches, record) =>
    (branches.map (place .layer).slice, cutRecord record (cutPerturbed place) size)
  | lowerBounds _, (values, record) =>
    ((place .bdd).slice values, cutRecord record (·.map (place .layer).slice) size)
  | ascendBackward .., gradient => gradient.map (place .layer).slice
  | redistributeBackward .., gradient => gradient.map (place .layer).slice
  | minMarginalsBackward .., gradient => gradient.map (place .layer).slice
  | perturbBackward .., gradient => cutPerturbed place gradient
  | lowerBoundsBackward .., gradient => gradient.map (place .layer).slice
  | round .., roundings => roundings[i]?.toList
  | solution _, values => (place .layer).slice values

/-- All arrays have a segment for every solver of a batch with these sizes. -/
def Fits (sizes : List Sizes) : Call α π β → Prop
  | ascend inputs _ => inputs.Sized (Sizes.total .layer sizes)
  | redistribute costs => costs.Sized (Sizes.total .layer sizes)
  | minMarginals branches => branches.Sized (Sizes.total .layer sizes)
  | perturb inputs => inputs.change.Sized (Sizes.total .slot sizes) ∧
      inputs.costs.Sized (Sizes.total .layer sizes)
  | lowerBounds branches => branches.Sized (Sizes.total .layer sizes)
  | ascendBackward record gradients => record.sizes = sizes ∧
      record.realized.length = sizes.length ∧ record.inputs.Sized (Sizes.total .layer sizes) ∧
      gradients.Fits .layer sizes
  | redistributeBackward record gradients => record.sizes = sizes ∧
      record.inputs.Sized (Sizes.total .layer sizes) ∧ gradients.Fits .layer sizes
  | minMarginalsBackward record gradients => record.sizes = sizes ∧
      record.inputs.Sized (Sizes.total .layer sizes) ∧ gradients.Fits .layer sizes
  | perturbBackward record gradients => record.sizes = sizes ∧
      record.inputs.change.Sized (Sizes.total .slot sizes) ∧
      record.inputs.costs.Sized (Sizes.total .layer sizes) ∧ gradients.Fits .layer sizes
  | lowerBoundsBackward record gradients => record.sizes = sizes ∧
      record.inputs.Sized (Sizes.total .layer sizes) ∧ gradients.Fits .bdd sizes
  | round costs _ => costs.Sized (Sizes.total .layer sizes)
  | solution branches => branches.Sized (Sizes.total .layer sizes)

/-- The solvers share no factor that all of them contribute to. -/
def Separate : Call α π β → Prop
  | ascendBackward record _ => record.inputs.damping.shared? = none
  | _ => True

variable [Scalar α] [Zero α] [Add α] [Sub α] [Mul α] [Neg α]

/-- Carries out the call on a batch. -/
def perform : Call α π β → Batch.Work α (Solver α) β
  | ascend inputs settings => Operation.ascend (inputs.map .ofArray) settings
  | redistribute costs => Operation.redistribute (costs.map .ofArray)
  | minMarginals branches => Operation.minMarginals (branches.map .ofArray)
  | perturb inputs =>
    Operation.perturb ⟨inputs.change.map .ofArray, inputs.costs.map .ofArray⟩
  | lowerBounds branches => Operation.lowerBounds (branches.map .ofArray)
  | ascendBackward record gradients => Operation.ascendBackward record gradients.buffers
  | redistributeBackward record gradients =>
    Operation.redistributeBackward record gradients.buffers
  | minMarginalsBackward record gradients =>
    Operation.minMarginalsBackward record gradients.buffers
  | perturbBackward record gradients => Operation.perturbBackward record gradients.buffers
  | lowerBoundsBackward record gradients =>
    Operation.lowerBoundsBackward record gradients.buffers
  | round costs settings => Operation.round (costs.map .ofArray) settings
  | solution branches => Operation.solution (branches.map .ofArray)

/-- The window of a solver's recorded run. -/
def windowOf (record : AscentRecord α) (i : Nat) : ReplayWindow :=
  .ofRun (record.realized.getD i 0) record.tracked

/-- What a call has one solver do at its place. -/
def one : Call α π β → Nat → (Segmentation → Span) → Procedure (Event α) (Solver α) (Error α) π
  | ascend inputs settings, i, place =>
    Operation.ascendOne inputs settings i (place .layer) (place .bdd)
  | redistribute costs, i, place => Operation.redistributeOne costs i (place .layer)
  | minMarginals branches, i, place => Operation.minMarginalsOne branches i (place .layer)
  | perturb inputs, i, place => Operation.perturbOne inputs i (place .layer) (place .slot)
  | lowerBounds branches, i, place =>
    Operation.lowerBoundsOne branches i (place .layer) (place .bdd)
  | ascendBackward record gradients, i, place => do
    let (_, gradient) ← Operation.descendOne record
      (gradients.costs record.inputs.costs.lo.size) i (place .layer) (windowOf record i) 0
    return gradient
  | redistributeBackward record gradients, i, place =>
    Operation.redistributeOneBackward record.inputs (gradients.branches record.inputs.lo.size) i
      (place .layer)
  | minMarginalsBackward record gradients, i, place =>
    Operation.minMarginalsOneBackward record.inputs
      (DenseGradients.orZeros gradients.values record.inputs.lo.size) i (place .layer)
  | perturbBackward record gradients, i, place =>
    Operation.perturbOneBackward record.inputs (gradients.branches record.inputs.costs.lo.size) i
      (place .layer) (place .slot)
  | lowerBoundsBackward record gradients, i, place =>
    Operation.lowerBoundsOneBackward record.inputs
      (DenseGradients.orZeros gradients.values (Sizes.total .bdd record.sizes)) i (place .layer)
      (place .bdd)
  | round costs settings, i, place => Operation.roundOne costs settings i (place .layer)
  | solution branches, i, place => Operation.solutionOne branches i (place .layer)

/-- The answer of a batch with these sizes, put together from what its solvers answered. -/
def answer (sizes : List Sizes) : Call α π β → List π → β
  | ascend inputs settings, parts =>
    (⟨Operation.joinCosts (parts.map (·.2)), parts.map (·.1.iterations),
        if settings.summarises then
          let trends := parts.filterMap (·.1.trend)
          some ⟨joined (trends.map (·.average)), joined (trends.map (·.first)),
            joined (trends.map (·.second))⟩
        else none⟩,
      ⟨⟨inputs, sizes⟩, parts.map (·.1.iterations), settings.tracked, settings.caches⟩)
  | redistribute costs, parts => (Operation.joinCosts parts, ⟨costs, sizes⟩)
  | minMarginals branches, parts => (joined parts, ⟨branches, sizes⟩)
  | perturb inputs, parts => (Operation.joinBranches parts, ⟨inputs, sizes⟩)
  | lowerBounds branches, parts => (joined parts, ⟨branches, sizes⟩)
  | ascendBackward record _, parts => Operation.gathered record 0 parts
  | redistributeBackward record gradients, parts =>
    ⟨gradients.branches record.inputs.lo.size, joined parts⟩
  | minMarginalsBackward .., parts => Operation.joinBranches parts
  | perturbBackward record gradients, parts =>
    ⟨Operation.joinBranches parts, gradients.branches record.inputs.costs.lo.size⟩
  | lowerBoundsBackward .., parts => Operation.joinBranches parts
  | round .., parts => parts
  | solution _, parts => joined parts

/-- The gradients in an answer, by name and by what they count. -/
def outgoing : Call α π β → β → List (String × Segmentation × Array α)
  | ascendBackward .., gradient =>
    [("grad_lo_costs", .layer, gradient.costs.lo), ("grad_hi_costs", .layer, gradient.costs.hi),
      ("grad_def_mm", .layer, gradient.costs.deferred),
      ("grad_dist_weights", .layer, gradient.weights),
      ("grad_omega", .layer, gradient.damping.toArray)]
  | redistributeBackward .., gradient =>
    [("grad_lo_costs", .layer, gradient.lo), ("grad_hi_costs", .layer, gradient.hi),
      ("grad_def_mm", .layer, gradient.deferred)]
  | minMarginalsBackward .., gradient =>
    [("grad_lo_costs", .layer, gradient.lo), ("grad_hi_costs", .layer, gradient.hi)]
  | perturbBackward .., gradient =>
    [("grad_lo_costs_pert", .slot, gradient.change.lo),
      ("grad_hi_costs_pert", .slot, gradient.change.hi),
      ("grad_lo_costs", .layer, gradient.costs.lo), ("grad_hi_costs", .layer, gradient.costs.hi)]
  | lowerBoundsBackward .., gradient =>
    [("grad_lo_costs", .layer, gradient.lo), ("grad_hi_costs", .layer, gradient.hi)]
  | _, _ => []

/-- The answer, if all gradients in it are finite. -/
def finish (sizes : List Sizes) (call : Call α π β) (parts : List π) : Except (Error α) β := do
  let answer := call.answer sizes parts
  Operation.requireFiniteArrays ((call.outgoing answer).map fun gradient =>
    (gradient.1, gradient.2.2))
  return answer

end Call

end DualAscent
