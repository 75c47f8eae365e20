import DualAscent.Proofs.Batch.Carry
import DualAscent.Proofs.GroupedSum
import DualAscent.Proofs.Operation.Whole

/-!
# The carried gradient of a shared damping factor

What earlier solvers have contributed to the gradient of a shared factor is passed through the
later ones.  In exact arithmetic it enters a reverse sweep and comes out of it as a summand; with a
factor per layer nothing is carried at all.
-/

namespace DualAscent

open Procedure Batch

variable {α : Type}

/-- Adds to the gradient of a shared factor. -/
def Damping.carry {τ : Type} [Add α] (amount : α) : Damping α τ → Damping α τ
  | shared value => shared (value + amount)
  | perLayer values => perLayer values

/-- Adds to the gradient of a shared damping factor. -/
def Inputs.carry {τ : Type} [Add α] (amount : α) (gradient : Inputs α τ) : Inputs α τ :=
  { gradient with damping := gradient.damping.carry amount }

theorem Inputs.map_carry {τ υ : Type} [Add α] (amount : α) (f : τ → υ) (gradient : Inputs α τ) :
    (gradient.carry amount).map f = (gradient.map f).carry amount := by
  obtain ⟨costs, weights, damping⟩ := gradient
  cases damping with
  | shared value => rfl
  | perLayer values => rfl

theorem Inputs.carry_carry_neg {τ : Type} [AddCommGroup α] (amount : α) (gradient : Inputs α τ) :
    (gradient.carry amount).carry (-amount) = gradient := by
  obtain ⟨costs, weights, damping⟩ := gradient
  cases damping with
  | shared value => simp only [carry, Damping.carry, add_neg_cancel_right]
  | perLayer values => rfl

section Exact

variable [CommRing α] {slots n : Nat}

theorem Damping.accumulate_carry (damping : Damping α (Vector α n)) (amounts : Vector α n)
    (amount : α) :
    (damping.carry amount).accumulate amounts = (damping.accumulate amounts).carry amount := by
  cases damping with
  | shared value =>
      simp only [carry, accumulate, foldl_add_eq_sum]
      rw [add_right_comm]
  | perLayer values => rfl

theorem Ascent.stepBackward_carry (a : Ascent α slots n) (c : Costs (Vector α n))
    (g : Inputs α (Vector α n)) (amount : α) :
    a.stepBackward c (g.carry amount) = (a.stepBackward c g).carry amount :=
  congrArg (Inputs.mk _ _) (Damping.accumulate_carry g.damping _ amount)

theorem Ascent.sweep_carry (a : Ascent α slots n) (states : List (Costs (Vector α n)))
    (g : Inputs α (Vector α n)) (amount : α) :
    a.sweep states (g.carry amount) = (a.sweep states g).carry amount := by
  induction states with
  | nil => rfl
  | cons c states ih =>
      rw [sweep, List.foldr_cons]
      exact (congrArg (a.stepBackward c) ih).trans (a.stepBackward_carry c _ amount)

namespace Solver

theorem swept_carry (s : Solver α) (inputs : Inputs α (Vector α s.layers)) (window : ReplayWindow)
    (caches : Nat) (gradient : Inputs α (Vector α s.layers)) (amount : α) :
    s.swept inputs window caches (gradient.carry amount) =
      (s.swept inputs window caches gradient).carry amount := by
  rw [swept, Ascent.checkpointedSweep_eq_sweep, Ascent.sweep_carry,
    ← Ascent.checkpointedSweep_eq_sweep]
  rfl

theorem ending_iterateBackward_carry (s : Solver α) (weights : Array α)
    (damping : Damping α (Array α)) (gradient : Inputs α (Array α)) (window : ReplayWindow)
    (caches : Nat) (amount : α) :
    ((iterateBackward weights damping (gradient.carry amount) window caches).run s).ending =
      (((iterateBackward weights damping gradient window caches).run s).ending.1,
        ((iterateBackward weights damping gradient window caches).run s).ending.2.map
          (·.carry amount)) := by
  rcases iterateBackward_cases s weights damping gradient window caches with
    ⟨kept, e, failed⟩ | ⟨weights', damping', gradient', rfl, rfl, rfl, latest, alone⟩
  · rcases iterateBackward_cases s weights damping (gradient.carry amount) window caches with
      ⟨kept', e', failed'⟩ | ⟨weights', damping', gradient', rfl, rfl, same, latest, -⟩
    · simp only [Outcome.ending, kept, kept', failed, failed']
      rfl
    · have accepted := yields_iterateBackward weights' damping' (gradient'.carry (-amount)) latest
        caches
      rw [Inputs.map_carry, same, Inputs.carry_carry_neg] at accepted
      cases failed.symm.trans accepted.result
  · have carried := yields_iterateBackward weights' damping' (gradient'.carry amount) latest caches
    rw [Inputs.map_carry] at carried
    simp only [Outcome.ending, alone.state, alone.result, carried.state, carried.result]
    rw [swept_carry, Inputs.map_carry]
    rfl

end Solver

end Exact

namespace Operation

variable [Scalar α] [Zero α] [Add α] [Sub α] [Mul α] [Neg α]

/-- What one solver sweeps back from a gradient of its damping factors on. -/
def sweepOne (record : AscentRecord α) (outer : Costs (Array α)) (layers : Span)
    (window : ReplayWindow) (ofDamping : Damping α (Array α)) :
    Solver.Work α (Inputs α (Array α)) := do
  let share := record.inputs.map layers.slice
  Engine.perform (.setCosts share.costs)
  Engine.perform (.gradIterations share.weights share.damping
    ⟨outer.map layers.slice, zeros layers, ofDamping⟩ window record.caches)

/-- The gradient of the damping factors from which a solver starts. -/
def incomingDamping (record : AscentRecord α) (layers : Span) (carried : α) :
    Damping α (Array α) :=
  match (record.inputs.map layers.slice).damping with
  | .shared _ => .shared carried
  | .perLayer _ => .perLayer (zeros layers)

theorem ending_descendOne (record : AscentRecord α) (outer : Costs (Array α)) (i : Nat)
    (layers : Span) (window : ReplayWindow) (carried : α) (s : Solver α) :
    let swept := ((sweepOne record outer layers window
      (incomingDamping record layers carried)).run s).ending
    ((descendOne record outer i layers window carried).run s).ending =
      (swept.1, swept.2.map fun gradient =>
        (gradient.damping.shared?.getD carried, gradient)) := by
  rw [descendOne, descendWith, (Yields.log _ s).ending_bind]
  refine ending_bind_congr (ending_attempt _ _ _ s) fun _ bound => ?_
  rw [(yields_logGradients _ _ bound).ending_bind, ending_bind, ending_attempt]
  have finished : ∀ (swept : Inputs α (Array α)) (reached : Solver α),
      ((logGradients i
        [("grad_lo_costs_out", swept.costs.lo), ("grad_hi_costs_out", swept.costs.hi),
          ("grad_def_mm_out", swept.costs.deferred), ("grad_dist_weights_out", swept.weights)] >>=
        fun _ => pure (swept.damping.shared?.getD carried, swept) :
          Procedure (Event α) (Solver α) (Error α) (α × Inputs α (Array α))).run reached).ending =
        (reached, some (swept.damping.shared?.getD carried, swept)) :=
    fun _ reached => (yields_logGradients _ _ reached).ending_bind _
  simp only [finished]
  rw [incomingDamping]
  rcases ((Engine.perform (Request.gradIterations _ _ _ _ _)).run bound).ending with
    ⟨reached, none | swept⟩
  · rfl
  · rfl

end Operation

namespace Call

variable {record : AscentRecord α} {gradients : DenseGradients α}

section Share

variable [Scalar α] [Zero α] [Add α] [Sub α] [Mul α] [Neg α]

theorem ending_one_ascendBackward (i : Nat) (place : Segmentation → Span) (s : Solver α) :
    (((ascendBackward record gradients).one i place).run s).ending =
      ((Operation.sweepOne record (gradients.costs record.inputs.costs.lo.size) (place .layer)
        (windowOf record i) (Operation.incomingDamping record (place .layer) 0)).run s).ending := by
  rw [one, ending_bind, Operation.ending_descendOne]
  rcases ((Operation.sweepOne record (gradients.costs record.inputs.costs.lo.size) (place .layer)
    (windowOf record i) (Operation.incomingDamping record (place .layer) 0)).run s).ending with
      ⟨reached, none | swept⟩
  · rfl
  · rfl

/-- With a factor per layer nothing that is carried matters. -/
theorem ending_descendOne_of_separate (i : Nat) (place : Segmentation → Span)
    (separate : (ascendBackward record gradients).Separate) (carried : α) (s : Solver α) :
    let alone := (((ascendBackward record gradients).one i place).run s).ending
    ((Operation.descendOne record (gradients.costs record.inputs.costs.lo.size) i (place .layer)
      (windowOf record i) carried).run s).ending =
        (alone.1, alone.2.map fun part => (part.damping.shared?.getD carried, part)) := by
  have incoming : Operation.incomingDamping record (place .layer) carried =
      Operation.incomingDamping record (place .layer) 0 := by
    have separate : record.inputs.damping.shared? = none := separate
    cases kind : record.inputs.damping with
    | shared value =>
        rw [kind] at separate
        cases separate
    | perLayer factors => simp only [Operation.incomingDamping, Inputs.map, kind, Damping.map]
  rw [Operation.ending_descendOne, ending_one_ascendBackward, incoming]

end Share

/-- In exact arithmetic a carried gradient is a summand. -/
theorem ending_descendOne_exact [CommRing α] [Scalar α] (i : Nat) (place : Segmentation → Span)
    (carried : α) (s : Solver α) :
    let alone := (((ascendBackward record gradients).one i place).run s).ending
    ((Operation.descendOne record (gradients.costs record.inputs.costs.lo.size) i (place .layer)
      (windowOf record i) carried).run s).ending =
        (alone.1, alone.2.map fun part =>
          ((part.carry carried).damping.shared?.getD carried, part.carry carried)) := by
  have incoming : Operation.incomingDamping record (place .layer) carried =
      (Operation.incomingDamping record (place .layer) 0).carry carried := by
    rw [Operation.incomingDamping, Operation.incomingDamping]
    cases (record.inputs.map (place .layer).slice).damping with
    | shared value => rw [Damping.carry, zero_add]
    | perLayer factors => rfl
  have swept : ∀ ofDamping : Damping α (Array α),
      let alone := ((Operation.sweepOne record (gradients.costs record.inputs.costs.lo.size)
        (place .layer) (windowOf record i) ofDamping).run s).ending
      ((Operation.sweepOne record (gradients.costs record.inputs.costs.lo.size) (place .layer)
        (windowOf record i) (ofDamping.carry carried)).run s).ending =
          (alone.1, alone.2.map (·.carry carried)) := by
    intro ofDamping
    refine ending_bind_congr rfl fun _ bound => ?_
    exact Solver.ending_iterateBackward_carry bound _ _ ⟨_, _, ofDamping⟩ _ _ carried
  rw [Operation.ending_descendOne, ending_one_ascendBackward, incoming, swept]
  simp only [Option.map_map]
  rfl

section Visit

variable [Scalar α] [Zero α] [Add α] [Sub α] [Mul α] [Neg α] {b : Batch (Solver α)}

/-- The checked gradient, from what was carried to the end and what the solvers answered. -/
def finishCarrying (record : AscentRecord α) (carried : α × List (Inputs α (Array α))) :
    Except (Error α) (Inputs α (Array α)) :=
  Operation.checked (Operation.gathered record carried.1 carried.2)

/-- The solvers can be visited without what is carried, if that only updates it and shows in their
answers. -/
theorem ending_ascendBackward {next : α → Inputs α (Array α) → α}
    {shown : α → Inputs α (Array α) → Inputs α (Array α)}
    (fits : (ascendBackward record gradients).Fits b.sizes) (stable : b.Stable)
    (same : ∀ i place carried s,
      let alone := (((ascendBackward record gradients).one i place).run s).ending
      ((Operation.descendOne record (gradients.costs record.inputs.costs.lo.size) i (place .layer)
        (windowOf record i) carried).run s).ending =
          (alone.1, alone.2.map fun part => (next carried part, shown carried part))) :
    ((ascendBackward record gradients).perform.run b).ending =
      ((visit b.sizes (fun i size => (ascendBackward record gradients).one i
        (place b.sizes i size)) >>= fun parts => lift (finishCarrying record
          (gather next shown 0 parts)) : Work α (Solver α) (Inputs α (Array α))).run b).ending := by
  obtain ⟨sizes, realized, inputs, outer⟩ := fits
  have matched := ensureMatches_eq_ok_iff.mpr ⟨rfl, stable⟩
  have branches := Operation.incomingBranches_buffers outer
  have deferred : incoming "grad_def_mm" gradients.buffers.deferred _ = .ok _ :=
    Operation.incoming_buffers "grad_def_mm" outer.deferred
  have windows : record.realized.map (ReplayWindow.ofRun · record.tracked) =
      b.sizes.mapIdx fun i _ => windowOf record i := by
    refine List.ext_getElem (by simp [realized]) fun i inside _ => ?_
    rw [List.length_map] at inside
    simp [windowOf, inside]
  have visited := ending_visitCarrying
    (fun i size carried s => same i (place b.sizes i size) carried s) 0 b.sizes b
  rw [inputs.costs.lo] at visited
  have rest : ∀ last : α × List (Inputs α (Array α)) → Work α (Solver α) (Inputs α (Array α)),
      (∀ pair, Alike (last pair) (lift (finishCarrying record pair))) →
      ((visitCarrying 0 b.sizes (fun i size => Operation.descendOne record
        (gradients.costs (Sizes.total .layer b.sizes)) i (place b.sizes i size .layer)
          (windowOf record i)) >>= last).run b).ending =
        ((visit b.sizes (fun i size => (ascendBackward record gradients).one i
          (place b.sizes i size)) >>= fun parts => lift (finishCarrying record
            (gather next shown 0 parts)) : Work α (Solver α) _).run b).ending := by
    intro last alike
    rw [ending_bind, visited, ending_bind]
    rcases ((visit b.sizes _).run b).ending with ⟨reached, none | parts⟩
    · rfl
    · exact alike _ reached
  simp only [perform, Operation.ascendBackward, run_read_bind, matched, run_lift_ok_bind,
    inputs.costs.lo, branches, deferred, sizes, Layout.require_ofSizes,
    Layout.spans_ofSizes, windows, zip_mapIdx, visitCarrying_mapIdx]
  cases gradients.buffers.average.isSome with
  | false => exact rest _ fun pair s => congrArg Outcome.ending (run_lift_bind_pure _ _ s)
  | true => exact rest _ fun pair s => congrArg Outcome.ending (run_lift_bind_pure _ _ s)

theorem ending_ascendBackward_of_separate (separate : (ascendBackward record gradients).Separate)
    (fits : (ascendBackward record gradients).Fits b.sizes) (stable : b.Stable) :
    ((ascendBackward record gradients).perform.run b).ending =
      (((ascendBackward record gradients).visits b.sizes).run b).ending := by
  have separate' : record.inputs.damping.shared? = none := separate
  have finish_eq : ∀ parts, finishCarrying record (gather
      (fun carried part => part.damping.shared?.getD carried) (fun _ part => part) 0 parts) =
        (ascendBackward record gradients).finish b.sizes parts := by
    intro parts
    have gathered_eq : ∀ carried, Operation.gathered record carried parts =
        Operation.gathered record 0 parts := by
      intro carried
      cases kind : record.inputs.damping with
      | shared value =>
          rw [kind] at separate'
          cases separate'
      | perLayer factors => simp only [Operation.gathered, kind]
    rw [finishCarrying, gather_snd_of_shown, gathered_eq]
    rfl
  rw [ending_ascendBackward fits stable fun i place =>
    ending_descendOne_of_separate i place separate]
  simp only [finish_eq]
  rfl

theorem ending_perform {π β : Type} {call : Call α π β} (fits : call.Fits b.sizes)
    (separate : call.Separate) (stable : b.Stable) :
    (call.perform.run b).ending = ((call.visits b.sizes).run b).ending := by
  cases call with
  | ascend inputs settings => exact ending_ascend settings fits stable
  | redistribute costs => exact ending_redistribute fits stable
  | minMarginals branches => exact ending_minMarginals fits stable
  | perturb inputs => exact ending_perturb fits.1 fits.2 stable
  | lowerBounds branches => exact ending_lowerBounds fits stable
  | ascendBackward record gradients => exact ending_ascendBackward_of_separate separate fits stable
  | redistributeBackward record gradients => exact ending_redistributeBackward fits stable
  | minMarginalsBackward record gradients => exact ending_minMarginalsBackward fits stable
  | perturbBackward record gradients => exact ending_perturbBackward fits stable
  | lowerBoundsBackward record gradients => exact ending_lowerBoundsBackward fits stable
  | round costs settings => exact ending_round settings fits stable
  | solution branches => exact ending_solution fits stable

end Visit

/-- What a solver contributes to the gradient of a shared damping factor. -/
def contribution [Zero α] (part : Inputs α (Array α)) : α := part.damping.shared?.getD 0

/-- In exact arithmetic the gradient of a shared factor is the sum of all contributions. -/
theorem ending_ascendBackward_exact [CommRing α] [Scalar α] {b : Batch (Solver α)} {value : α}
    (shared : record.inputs.damping = .shared value)
    (fits : (ascendBackward record gradients).Fits b.sizes) (stable : b.Stable) :
    ((ascendBackward record gradients).perform.run b).ending =
      ((visit b.sizes (fun i size => (ascendBackward record gradients).one i
        (place b.sizes i size)) >>= fun parts => lift (finishCarrying record
          ((parts.map contribution).sum, parts)) : Work α (Solver α) _).run b).ending := by
  let next (carried : α) (part : Inputs α (Array α)) : α :=
    (part.carry carried).damping.shared?.getD carried
  let shown (carried : α) (part : Inputs α (Array α)) : Inputs α (Array α) := part.carry carried
  have adds : ∀ carried part, next carried part = carried + contribution part := by
    intro carried part
    show (part.damping.carry carried).shared?.getD carried =
      carried + part.damping.shared?.getD 0
    cases part.damping with
    | shared value => exact add_comm value carried
    | perLayer factors => exact (add_zero carried).symm
  have finish_eq : ∀ parts, finishCarrying record (gather next shown 0 parts) =
      finishCarrying record ((parts.map contribution).sum, parts) := by
    intro parts
    have costs : (gather next shown 0 parts).2.map (·.costs) = parts.map (·.costs) :=
      map_gather_snd next shown (fun _ _ => rfl) 0 parts
    have weights : (gather next shown 0 parts).2.map (·.weights) = parts.map (·.weights) :=
      map_gather_snd next shown (fun _ _ => rfl) 0 parts
    have total := gather_fst_eq_add_sum shown adds 0 parts
    rw [zero_add] at total
    simp only [finishCarrying, Operation.gathered, costs, weights, total, shared]
  have ended : _ = ((visit b.sizes (fun i size => (ascendBackward record gradients).one i
      (place b.sizes i size)) >>= fun parts => lift (finishCarrying record
        (gather next shown 0 parts)) : Work α (Solver α) _).run b).ending :=
    ending_ascendBackward fits stable fun i place => ending_descendOne_exact i place
  simp only [finish_eq] at ended
  exact ended

end Call

end DualAscent
