import DualAscent.Proofs.Operation.Cut
import DualAscent.Proofs.Operation.Formulas
import DualAscent.Proofs.Transpose

/-!
# Backward passes of linear operations

Redistribution, min-marginal differences and perturbation are linear in what they are given.  Each
of their backward passes applies the transposed formula: what an outer gradient gains by a change of
the answer is what the returned gradient gains by the change of the inputs.
-/

namespace DualAscent

open Procedure Batch

/-- The operations that are linear, indexed by what they are given and what they answer. -/
inductive Linear (α : Type) : Type → Type → Type where
  /-- Moves deferred min-marginals into the costs. -/
  | redistribution : Linear α (Costs (Array α)) (Costs (Array α))
  /-- Computes min-marginal differences. -/
  | minMarginals : Linear α (Branches (Array α)) (Array α)
  /-- Perturbs costs per variable. -/
  | perturbation : Linear α (Perturbed (Array α)) (Branches (Array α))

namespace Linear

section Operations

variable {α ι ο : Type}

/-- What the operation asks the solvers for. -/
def routine : Linear α ι ο → Routine
  | redistribution => .distributeDelta
  | minMarginals => .minMarginals
  | perturbation => .perturb

/-- The forward pass as a call. -/
def call : Linear α ι ο → ι → Call α ο (ο × Saved ι)
  | redistribution, costs => .redistribute costs
  | minMarginals, branches => .minMarginals branches
  | perturbation, inputs => .perturb inputs

/-- The inputs have a segment for every solver. -/
def Fits (op : Linear α ι ο) (sizes : List Sizes) (inputs : ι) : Prop := (op.call inputs).Fits sizes

section Passes

variable [Scalar α] [Zero α] [Add α] [Sub α] [Mul α] [Neg α]

/-- The forward pass. -/
def forward (op : Linear α ι ο) (inputs : ι) : Work α (Solver α) (ο × Saved ι) :=
  (op.call inputs).perform

/-- The backward pass. -/
def backward : Linear α ι ο → Saved ι → DenseGradients α → Work α (Solver α) ι
  | redistribution, record, gradients => (Call.redistributeBackward record gradients).perform
  | minMarginals, record, gradients => (Call.minMarginalsBackward record gradients).perform
  | perturbation, record, gradients => (Call.perturbBackward record gradients).perform

end Passes

variable [Zero α]

/-- The arrays of an answer have this length. -/
def Sized (length : Nat) : Linear α ι ο → ο → Prop
  | redistribution, costs => costs.Sized length
  | minMarginals, values => values.size = length
  | perturbation, branches => branches.Sized length

/-- Nothing is deferred in the answer. -/
def Settled : Linear α ι ο → ο → Prop
  | redistribution, costs => ∀ value ∈ costs.deferred, value = 0
  | minMarginals, _ => True
  | perturbation, _ => True

/-- The outer gradient of an answer; missing arrays count as zero. -/
def outer (length : Nat) : Linear α ι ο → DenseGradients α → ο
  | redistribution, gradients => gradients.costs length
  | minMarginals, gradients => DenseGradients.orZeros gradients.values length
  | perturbation, gradients => gradients.branches length

end Operations

section Gains

variable {R ι ο : Type} [CommRing R]

/-- What a gradient gains by a change of the inputs. -/
def inputGain : Linear R ι ο → ι → ι → ι → R
  | redistribution => Costs.gain gain
  | minMarginals => Branches.gain gain
  | perturbation => Perturbed.gain gain

/-- What a gradient gains by a change of the answer. -/
def outputGain : Linear R ι ο → ο → ο → ο → R
  | redistribution => Costs.gain gain
  | minMarginals => gain
  | perturbation => Branches.gain gain

end Gains

end Linear

section Shares

variable {α : Type} [Zero α]

variable (b : Batch (Solver α)) (i : Fin b.members.length)

/-- The working costs of the solver at a position. -/
def workingAt (costs : Costs (Array α)) : Costs (Vector α (b.solverAt i).layers) :=
  (costs.map (b.placeAt i .layer).slice).map (fit _)

/-- The entries for the layers of the solver at a position. -/
def entriesAt (values : Array α) : Vector α (b.solverAt i).layers :=
  fit _ ((b.placeAt i .layer).slice values)

/-- The branch costs of the solver at a position. -/
def branchesAt (branches : Branches (Array α)) : Branches (Vector α (b.solverAt i).layers) :=
  (branches.map (b.placeAt i .layer).slice).map (fit _)

/-- The perturbation of the solver at a position. -/
def changeAt (change : Branches (Array α)) : Branches (Vector α (b.solverAt i).slots) :=
  (change.map (b.placeAt i .slot).slice).map (fit _)

end Shares

namespace Linear

variable {α ι ο : Type} [Zero α] [Add α] [Sub α] [Neg α] (b : Batch (Solver α))

/-- What the solvers of a batch answer, put together. -/
def answer : Linear α ι ο → ι → ο
  | redistribution, costs =>
    Operation.joinCosts (List.ofFn fun i => (workingAt b i costs).distribute.map Vector.toArray)
  | minMarginals, branches =>
    joined (List.ofFn fun i => (Operation.costsAt b branches i).margins.toArray)
  | perturbation, inputs =>
    Operation.joinBranches (List.ofFn fun i =>
      ((Operation.costsAt b inputs.costs i).perturb (b.solverAt i).diagrams.slotOf
        (changeAt b i inputs.change)).toBranches.map Vector.toArray)

/-- The transposed formulas of the solvers, put together. -/
def gradient : Linear α ι ο → ο → ι
  | redistribution, outer => ⟨outer.toBranches, outer.hi⟩
  | minMarginals, outer =>
    Operation.joinBranches (List.ofFn fun i =>
      Branches.map Vector.toArray ⟨(entriesAt b i outer).map (-·), entriesAt b i outer⟩)
  | perturbation, outer =>
    ⟨Operation.joinBranches (List.ofFn fun i =>
      ((branchesAt b i outer).map (sumBy (b.solverAt i).diagrams.slotOf)).map Vector.toArray),
        outer⟩

end Linear

section Answers

variable {α ι ο : Type} [Scalar α] [Zero α] [Add α] [Sub α] [Mul α] [Neg α] {b : Batch (Solver α)}
  (op : Linear α ι ο) {inputs : ι}

namespace Linear

/-- Able solvers answer by their formulas. -/
theorem forward_of_able (able : b.Able op.routine) (fits : op.Fits b.sizes inputs) :
    ((op.forward inputs).run b).result = .ok (op.answer b inputs, ⟨inputs, b.sizes⟩) := by
  have long := able.stable.length_layers
  have inside := fun i => stop_placeAt_le (b := b) i .layer
  cases op with
  | redistribution =>
      refine (Call.redistribute inputs).result_perform fits trivial able.stable (fun i => ?_) rfl
      exact Operation.result_redistributeOne (able.intact i) (long i) (inside i) i fits
        (able.healthy i)
  | minMarginals =>
      refine (Call.minMarginals inputs).result_perform fits trivial able.stable (fun i => ?_) rfl
      exact Operation.result_minMarginalsOne (able.intact i) (long i) (inside i) i fits
        (able.healthy i)
  | perturbation =>
      refine (Call.perturb inputs).result_perform fits trivial able.stable (fun i => ?_) rfl
      exact Operation.result_perturbOne (able.intact i) (long i) (inside i) i fits.2
        (able.stable.length_slots i) (able.healthy i) (stop_placeAt_le i .slot) fits.1

/-- Solvers that answered were able to. -/
theorem able_of_forward {answer : ο × Saved ι}
    (ok : ((op.forward inputs).run b).result = .ok answer) :
    b.Able op.routine ∧ op.Fits b.sizes inputs := by
  have stable_fits : b.Stable ∧ op.Fits b.sizes inputs := by
    cases op with
    | redistribution =>
        obtain ⟨stable, fits⟩ := accepted_of_ok (Operation.screens_redistribute b _)
          (Operation.decides_costs b _) ok
        rw [Costs.elements_ofArray] at fits
        exact ⟨stable, fits⟩
    | minMarginals =>
        obtain ⟨stable, fits⟩ := accepted_of_ok (Operation.screens_minMarginals b _)
          (Operation.decides_branches b _) ok
        rw [Branches.elements_ofArray] at fits
        exact ⟨stable, fits⟩
    | perturbation =>
        obtain ⟨stable, costs, change⟩ := accepted_of_ok (Operation.screens_perturb b _)
          (Operation.decides_perturbed b _) ok
        simp only [Perturbed.elements, Branches.elements_ofArray] at costs change
        exact ⟨stable, change, costs⟩
  obtain ⟨stable, fits⟩ := stable_fits
  have each (i : Fin b.members.length) :
      (b.solverAt i).intact = true ∧ (b.solverAt i).failure ≠ some op.routine := by
    cases op with
    | redistribution =>
        obtain ⟨_, answered⟩ := (Call.redistribute inputs).exists_part fits trivial stable ok i
        exact Operation.able_of_redistributeOne i answered
    | minMarginals =>
        obtain ⟨_, answered⟩ := (Call.minMarginals inputs).exists_part fits trivial stable ok i
        exact Operation.able_of_minMarginalsOne i answered
    | perturbation =>
        obtain ⟨_, answered⟩ := (Call.perturb inputs).exists_part fits trivial stable ok i
        exact Operation.able_of_perturbOne i answered
  exact ⟨⟨stable, fun i => (each i).1, fun i => (each i).2⟩, fits⟩

/-- Backward passes return transposed formulas. -/
theorem backward_of_able [AllFinite α] (able : b.Able op.routine) (fits : op.Fits b.sizes inputs)
    {gradients : DenseGradients α} (given : gradients.Fits .layer b.sizes) :
    ((op.backward ⟨inputs, b.sizes⟩ gradients).run b).result =
      .ok (op.gradient b (op.outer (Sizes.total .layer b.sizes) gradients)) := by
  have long := able.stable.length_layers
  have inside := fun i => stop_placeAt_le (b := b) i .layer
  have outer_sized := given.sized_branches
  cases op with
  | redistribution =>
      let call := Call.redistributeBackward ⟨inputs, b.sizes⟩ gradients
      have covered : inputs.lo.size = Sizes.total .layer b.sizes := fits.lo
      rw [← covered] at outer_sized ⊢
      refine call.result_perform ⟨rfl, fits, given⟩ trivial able.stable (fun i =>
        Operation.result_redistributeOneBackward (able.intact i) (long i) (inside i) i fits
          (covered ▸ outer_sized)) ((call.finish_eq_ok _ _).trans (congrArg Except.ok ?_))
      exact congrArg (Costs.mk _) (joined_placeAt (outer_sized.hi.trans covered))
  | minMarginals =>
      let call := Call.minMarginalsBackward ⟨inputs, b.sizes⟩ gradients
      have covered : inputs.lo.size = Sizes.total .layer b.sizes := fits.lo
      have outer_size := DenseGradients.size_orZeros given.values
      rw [← covered] at outer_size ⊢
      have part_size (i : Fin b.members.length) :=
        (Span.size_slice _ _ (outer_size.trans covered ▸ inside i)).trans (long i)
      exact call.result_perform ⟨rfl, fits, given⟩ trivial able.stable (fun i =>
        Operation.result_minMarginalsOneBackward (able.intact i) (long i) (inside i) i fits
          (part_size i)) (call.finish_eq_ok _ _)
  | perturbation =>
      let call := Call.perturbBackward ⟨inputs, b.sizes⟩ gradients
      have covered : inputs.costs.lo.size = Sizes.total .layer b.sizes := fits.2.lo
      rw [← covered] at outer_sized ⊢
      exact call.result_perform ⟨rfl, fits.1, fits.2, given⟩ trivial able.stable (fun i =>
        Operation.result_perturbOneBackward (able.intact i) (long i) (inside i) i fits.2
          (able.stable.length_slots i) (covered ▸ outer_sized)) (call.finish_eq_ok _ _)

end Linear

end Answers

section Gains

variable {R ι ο : Type} [CommRing R] [Scalar R] {b : Batch (Solver R)} (op : Linear R ι ο)
  (stable : b.Stable)

include stable

theorem joined_entriesAt {values : Array R} (sized : values.size = Sizes.total .layer b.sizes) :
    joined (List.ofFn fun i => (entriesAt b i values).toArray) = values :=
  joined_fit sized stable.length_layers

theorem joinCosts_workingAt {costs : Costs (Array R)}
    (sized : costs.Sized (Sizes.total .layer b.sizes)) :
    Operation.joinCosts (List.ofFn fun i => (workingAt b i costs).map Vector.toArray) = costs :=
  Operation.joinCosts_fit stable.length_layers sized

theorem joinBranches_branchesAt {branches : Branches (Array R)}
    (sized : branches.Sized (Sizes.total .layer b.sizes)) :
    Operation.joinBranches (List.ofFn fun i => (branchesAt b i branches).map Vector.toArray) =
      branches :=
  Operation.joinBranches_fit stable.length_layers sized

theorem joinBranches_changeAt {change : Branches (Array R)}
    (sized : change.Sized (Sizes.total .slot b.sizes)) :
    Operation.joinBranches (List.ofFn fun i => (changeAt b i change).map Vector.toArray) =
      change :=
  Operation.joinBranches_fit stable.length_slots sized

namespace Linear

theorem sized_answer {inputs : ι} : op.Sized (Sizes.total .layer b.sizes) (op.answer b inputs) := by
  have long := stable.length_layers
  cases op with
  | redistribution => exact Operation.sized_joinCosts_ofFn long _
  | minMarginals => exact size_joined_toArray long _
  | perturbation => exact Operation.sized_joinBranches_ofFn long _

omit [Scalar R] stable in
theorem settled_answer {inputs : ι} : op.Settled (op.answer b inputs) := by
  cases op with
  | redistribution =>
      intro value member
      simp only [answer, Operation.joinCosts, List.map_ofFn, mem_joined_ofFn] at member
      obtain ⟨i, member⟩ := member
      exact (Array.mem_replicate.mp member).2
  | minMarginals => trivial
  | perturbation => trivial

theorem fits_gradient {outer : ο} (sized : op.Sized (Sizes.total .layer b.sizes) outer) :
    op.Fits b.sizes (op.gradient b outer) := by
  cases op with
  | redistribution => exact ⟨sized.toSized, sized.hi⟩
  | minMarginals => exact Operation.sized_joinBranches_ofFn stable.length_layers _
  | perturbation => exact ⟨Operation.sized_joinBranches_ofFn stable.length_slots _, sized⟩

theorem outputGain_redistribution {costs costs' outer : Costs (Array R)}
    (sized : costs.Sized (Sizes.total .layer b.sizes))
    (sized' : costs'.Sized (Sizes.total .layer b.sizes))
    (given : outer.Sized (Sizes.total .layer b.sizes)) :
    outer.gain gain (redistribution.answer b costs') (redistribution.answer b costs) =
      (redistribution.gradient b outer).gain gain costs' costs := by
  have passed : Costs.Sized (Sizes.total .layer b.sizes) ⟨outer.toBranches, outer.hi⟩ :=
    ⟨given.toSized, given.hi⟩
  conv => lhs; rw [← joinCosts_workingAt stable given]
  conv =>
    rhs
    rw [← joinCosts_workingAt stable sized, ← joinCosts_workingAt stable sized', gradient,
      ← joinCosts_workingAt stable passed]
  rw [answer, answer, gain_joinCosts, gain_joinCosts]
  exact Finset.sum_congr rfl fun i _ => gain_distribute _ _ _

theorem outputGain_minMarginals {branches branches' : Branches (Array R)} {outer : Array R}
    (sized : branches.Sized (Sizes.total .layer b.sizes))
    (sized' : branches'.Sized (Sizes.total .layer b.sizes))
    (given : outer.size = Sizes.total .layer b.sizes) :
    gain outer (minMarginals.answer b branches') (minMarginals.answer b branches) =
      (minMarginals.gradient b outer).gain gain branches' branches := by
  conv => lhs; rw [← joined_entriesAt stable given]
  conv =>
    rhs
    rw [← joinBranches_branchesAt stable sized, ← joinBranches_branchesAt stable sized']
  rw [answer, answer, gradient, gain_joined, gain_joinBranches]
  exact Finset.sum_congr rfl fun i _ =>
    gain_margins (Operation.costsAt b branches i) (Operation.costsAt b branches' i) rfl _

/-- The sum over the layers of all solvers is exchanged for one over their slots. -/
theorem outputGain_perturbation {inputs inputs' : Perturbed (Array R)}
    {outer : Branches (Array R)} (fits : perturbation.Fits b.sizes inputs)
    (fits' : perturbation.Fits b.sizes inputs')
    (given : outer.Sized (Sizes.total .layer b.sizes)) :
    outer.gain gain (perturbation.answer b inputs') (perturbation.answer b inputs) =
      (perturbation.gradient b outer).gain gain inputs' inputs := by
  have change_gain := gain_joinBranches
    (fun i => (branchesAt b i outer).map (sumBy (b.solverAt i).diagrams.slotOf))
    (fun i => changeAt b i inputs'.change) (fun i => changeAt b i inputs.change)
  have costs_gain := gain_joinBranches (fun i => branchesAt b i outer)
    (fun i => branchesAt b i inputs'.costs) (fun i => branchesAt b i inputs.costs)
  rw [joinBranches_changeAt stable fits.1, joinBranches_changeAt stable fits'.1] at change_gain
  rw [joinBranches_branchesAt stable fits.2, joinBranches_branchesAt stable fits'.2,
    joinBranches_branchesAt stable given] at costs_gain
  conv => lhs; rw [← joinBranches_branchesAt stable given]
  rw [answer, answer, gain_joinBranches, gradient, Perturbed.gain, change_gain, costs_gain,
    ← Finset.sum_add_distrib]
  exact Finset.sum_congr rfl fun i _ => gain_perturb _ _ _ _ _ _

omit [Scalar R] stable in
theorem sized_outer {gradients : DenseGradients R} (given : gradients.Fits .layer b.sizes) :
    op.Sized (Sizes.total .layer b.sizes) (op.outer (Sizes.total .layer b.sizes) gradients) := by
  cases op with
  | redistribution => exact ⟨given.sized_branches, DenseGradients.size_orZeros given.deferred⟩
  | minMarginals => exact DenseGradients.size_orZeros given.values
  | perturbation => exact given.sized_branches

/-- What an outer gradient gains by the answer, its image under the transposed formula gains by the
inputs. -/
theorem outputGain_answer {inputs inputs' : ι} (fits : op.Fits b.sizes inputs)
    (fits' : op.Fits b.sizes inputs') {outer : ο}
    (given : op.Sized (Sizes.total .layer b.sizes) outer) :
    op.outputGain outer (op.answer b inputs') (op.answer b inputs) =
      op.inputGain (op.gradient b outer) inputs' inputs := by
  cases op with
  | redistribution => exact outputGain_redistribution stable fits fits' given
  | minMarginals => exact outputGain_minMarginals stable fits fits' given
  | perturbation => exact outputGain_perturbation stable fits fits' given

end Linear

end Gains

namespace Linear

variable {ι ο : Type}

section Standing

variable {α : Type} [Scalar α] [Zero α] [Add α] [Sub α] [Mul α] [Neg α] {b b' : Batch (Solver α)}
  (op : Linear α ι ο) (same : standings b' = standings b)

include same

theorem result_forward_of_standings (inputs : ι) :
    ((op.forward inputs).run b').result = ((op.forward inputs).run b).result := by
  cases op with
  | redistribution => exact (Operation.agrees_redistribute _ same).result
  | minMarginals => exact (Operation.agrees_minMarginals _ same).result
  | perturbation => exact (Operation.agrees_perturb _ same).result

theorem result_backward_of_standings (record : Saved ι) (gradients : DenseGradients α) :
    ((op.backward record gradients).run b').result =
      ((op.backward record gradients).run b).result := by
  cases op with
  | redistribution => exact (Operation.agrees_redistributeBackward _ _ same).result
  | minMarginals => exact (Operation.agrees_minMarginalsBackward _ _ same).result
  | perturbation => exact (Operation.agrees_perturbBackward _ _ same).result

end Standing

/-- The backward passes of linear operations are their adjoints.  A forward pass answers if the
solvers are able to and the inputs fit them.  Then so does the backward pass with its record, and
however the inputs are changed, the outer gradient, missing arrays of which count as zero, gains by
the change of the answer what the returned gradient gains by that of the inputs.  A redistribution
never leaves anything deferred.  Gradients and other answers may be asked for at any time, as long
as the solvers keep their standing. -/
theorem backward_isAdjoint {R : Type} [CommRing R] [Scalar R] [AllFinite R]
    {b b' : Batch (Solver R)} (op : Linear R ι ο) (same : standings b' = standings b)
    (inputs : ι) :
    let length := Sizes.total .layer b.sizes
    ((∃ outcome, ((op.forward inputs).run b).result = .ok outcome) ↔
        b.Able op.routine ∧ op.Fits b.sizes inputs) ∧
      ∀ answer record, ((op.forward inputs).run b).result = .ok (answer, record) →
        op.Sized length answer ∧ op.Settled answer ∧
        ∀ gradients : DenseGradients R, gradients.Fits .layer b.sizes →
          ∃ gradient, ((op.backward record gradients).run b').result = .ok gradient ∧
            op.Fits b.sizes gradient ∧
            ∀ inputs' : ι, op.Fits b.sizes inputs' →
              ∃ answer' record',
                ((op.forward inputs').run b').result = .ok (answer', record') ∧
                op.Sized length answer' ∧ op.Settled answer' ∧
                op.outputGain (op.outer length gradients) answer' answer =
                  op.inputGain gradient inputs' inputs := by
  refine ⟨⟨?_, ?_⟩, fun answer record ok => ?_⟩
  · rintro ⟨outcome, ok⟩
    exact op.able_of_forward ok
  · rintro ⟨able, fits⟩
    exact ⟨_, op.forward_of_able able fits⟩
  · obtain ⟨able, fits⟩ := op.able_of_forward ok
    cases ok.symm.trans (op.forward_of_able able fits)
    refine ⟨op.sized_answer able.stable, op.settled_answer, fun gradients given => ?_⟩
    have sized := op.sized_outer given
    have returned := (op.result_backward_of_standings same _ _).trans
      (op.backward_of_able able fits given)
    refine ⟨_, returned, op.fits_gradient able.stable sized, fun inputs' fits' => ?_⟩
    have answered := (op.result_forward_of_standings same _).trans (op.forward_of_able able fits')
    exact ⟨_, _, answered, op.sized_answer able.stable, op.settled_answer,
      op.outputGain_answer able.stable fits fits' sized⟩

/-- A solver that reads one variable twice and another one never, and one that reads its only
variable once. -/
def repeating : Batch (Solver ℚ) :=
  ofSolvers [.ofDiagrams ⟨2, [[.last 1], [.last 1]]⟩ none none,
    .ofDiagrams ⟨1, [[.last 0]]⟩ none none]

/-- The perturbation of a variable counts for all layers that read it. -/
theorem repeating_isAdjoint :
    let costs : Branches (Array ℚ) := ⟨#[1, 0, 2, 0, 3, 0], #[2, 0, 1, 0, 1 / 2, 0]⟩
    let inputs : Perturbed (Array ℚ) := ⟨⟨#[0, 1, 0, 2, 0], #[1, 0, 0, 1, 0]⟩, costs⟩
    let inputs' : Perturbed (Array ℚ) := ⟨⟨#[5, 2, 0, 1, 1], #[0, 7, 0, 1, 3]⟩, costs⟩
    let gradients : DenseGradients ℚ := ⟨some #[1, 1, 2, 0, 4, 1], none, none, none, none⟩
    let later := ((perturbation.forward inputs).run repeating).state
    ∃ answer record gradient answer' record',
      ((perturbation.forward inputs).run repeating).result = .ok (answer, record) ∧
      ((perturbation.backward record gradients).run later).result = .ok gradient ∧
      ((perturbation.forward inputs').run later).result = .ok (answer', record') ∧
      perturbation.outputGain (perturbation.outer 6 gradients) answer' answer =
        perturbation.inputGain gradient inputs' inputs := by
  intro costs inputs inputs' gradients later
  have answered : ((perturbation.forward inputs).run repeating).result.toOption.isSome = true := by
    decide +kernel
  obtain ⟨⟨answer, record⟩, found⟩ := Option.isSome_iff_exists.mp answered
  have ok := toOption_eq_some_iff.mp found
  have standing : standings later = standings repeating :=
    Operation.fixes_perturb (fun _ _ => rfl) _ repeating
  have given : gradients.Fits .layer repeating.sizes := by
    refine ⟨fun values there => ?_, nofun, nofun, nofun⟩
    cases there
    rfl
  obtain ⟨-, -, passes⟩ :=
    (perturbation.backward_isAdjoint standing inputs).2 answer record ok
  obtain ⟨gradient, returned, -, others⟩ := passes gradients given
  obtain ⟨answer', record', answered', -, -, gains⟩ :=
    others inputs' ⟨⟨rfl, rfl⟩, ⟨rfl, rfl⟩⟩
  exact ⟨answer, record, gradient, answer', record', ok, returned, answered', gains⟩

end Linear

end DualAscent
