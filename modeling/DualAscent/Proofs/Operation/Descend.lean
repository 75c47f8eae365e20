import DualAscent.Operation.Ascend
import DualAscent.Proofs.Batch.Walk
import DualAscent.Proofs.Segment
import DualAscent.Proofs.Sized
import DualAscent.Proofs.Solver.Replay

/-!
# Sending gradients back through a recorded dual ascent

If a record fits the batch and the runs it tells of are the latest ones of the solvers, every
solver replays exactly its run.  Nothing fails then but the last check, which refuses gradients
that are not finite.
-/

namespace DualAscent

open Procedure Batch

namespace Operation

variable {α : Type}

/-- The gradient of damping factors from which a solver starts: zero, but for what solvers before
have contributed to a shared one. -/
def startDamping [Zero α] {n : Nat} (damping : Damping α (Vector α n)) (carried : α) :
    Damping α (Vector α n) :=
  match damping with
  | .shared _ => .shared carried
  | .perLayer _ => .perLayer (Vector.replicate n 0)

theorem matches_startDamping [Zero α] {β τ : Type} {n : Nat} {damping : Damping α (Vector α n)}
    {other : Damping β τ} (matched : damping.Matches other) (carried : α) :
    (startDamping damping carried).Matches other := by
  cases damping with
  | shared value => exact matched
  | perLayer factors => exact matched

theorem map_startDamping [Zero α] {n : Nat} (damping : Damping α (Vector α n)) (carried : α) :
    (startDamping damping carried).map Vector.toArray =
      match damping.map Vector.toArray with
      | .shared _ => .shared carried
      | .perLayer _ => .perLayer (Vector.replicate n 0).toArray := by
  cases damping with
  | shared value => rfl
  | perLayer factors => rfl

theorem yields_logGradients {σ : Type} (i : Nat) (named : List (String × Array α)) (s : σ) :
    (logGradients i named).Yields s s () := by
  induction named with
  | nil => exact .pure () s
  | cons pair named ih => exact (Yields.log _ s).bind ih

section Run

variable [Scalar α] [Zero α] [Add α] [Sub α] [Mul α] [Neg α]

/-- The gradient of the inputs of one solver. -/
def oneSwept (record : AscentRecord α) (outer : Costs (Array α)) (s : Solver α) (layers : Span)
    (window : ReplayWindow) (carried : α) : Inputs α (Vector α s.layers) :=
  let inputs := (record.inputs.map layers.slice).map (fit s.layers)
  s.swept inputs window record.caches
    ⟨(outer.map layers.slice).map (fit s.layers), Vector.replicate s.layers 0,
      startDamping inputs.damping carried⟩

omit [Scalar α] [Add α] [Sub α] [Mul α] [Neg α] in
theorem zeros_eq {layers : Span} {n : Nat} (long : layers.length = n) :
    (zeros layers : Array α) = (Vector.replicate n 0).toArray := by
  rw [zeros, long]
  rfl

/-- A solver whose costs can be bound is bound to those of its share. -/
theorem yields_setCosts {inputs : Inputs α (Array α)} {total : Nat} (sized : inputs.Sized total)
    {layers : Span} {s : Solver α} (long : layers.length = s.layers) (inside : layers.stop ≤ total)
    (intact : s.intact = true) (i : Nat) (context : Context α) :
    (attempt i context (.setCosts (inputs.map layers.slice).costs)).Yields s
      { s with costs := ((inputs.map layers.slice).map (fit s.layers)).costs } () := by
  have share := (sized.slice inside).map_fit
  rw [long] at share
  apply yields_attempt i context
  conv in Request.setCosts _ => rw [← share]
  exact Solver.yields_setCosts intact ((inputs.map layers.slice).map (fit s.layers)).costs

theorem yields_descendOne (record : AscentRecord α) (outer : Costs (Array α)) (i : Nat)
    (layers : Span) (window : ReplayWindow) (carried : α) {s : Solver α} {total : Nat}
    (long : layers.length = s.layers) (inputs : record.inputs.Sized total)
    (gradient : outer.Sized total) (inside : layers.stop ≤ total) (intact : s.intact = true)
    (latest : window.total = s.pending.head?.getD 0) :
    let swept := (oneSwept record outer s layers window carried).map Vector.toArray
    (descendOne record outer i layers window carried).Yields s
      { s.replayed window record.caches with
        costs := (record.inputs.costs.map layers.slice).map (fit s.layers) }
      (swept.damping.shared?.getD carried, swept) := by
  have share := (inputs.slice inside).map_fit
  have outer_eq := (gradient.slice inside).map_fit
  rw [long] at share outer_eq
  intro swept
  let values := (record.inputs.map layers.slice).map (fit s.layers)
  let bound : Solver α := { s with costs := values.costs }
  let context : Context α := .replay window
  have binding := yields_setCosts inputs long inside intact i context
  have replaying : (attempt i context (.gradIterations (record.inputs.map layers.slice).weights
      (record.inputs.map layers.slice).damping
      ⟨outer.map layers.slice, zeros layers,
        match (record.inputs.map layers.slice).damping with
        | .shared _ => .shared carried
        | .perLayer _ => .perLayer (zeros layers)⟩ window record.caches)).Yields bound
      (bound.replayed window record.caches) swept := by
    apply yields_attempt i context
    rw [← share, ← outer_eq, zeros_eq long]
    have replay := Solver.yields_iterateBackward (s := bound) values.weights values.damping
      ⟨(outer.map layers.slice).map (fit s.layers), Vector.replicate s.layers 0,
        startDamping values.damping carried⟩ latest record.caches
    simp only [Inputs.map] at replay
    rw [map_startDamping values.damping carried] at replay
    exact replay
  exact (Yields.log _ s).bind (binding.bind ((yields_logGradients i _ bound).bind
    (replaying.bind ((yields_logGradients i _ _).bind (.pure _ _)))))

/-- The solver has sent gradients back through its latest run. -/
def Replays (record : AscentRecord α) (before after : Member (Solver α)) : Prop :=
  after.frozen = before.frozen ∧ ∃ costs, after.solver = { before.solver.replayed
    (.ofRun (before.solver.pending.head?.getD 0) record.tracked) record.caches with costs }

/-- The share of one solver, as spans and windows pair up. -/
def descendShare (record : AscentRecord α) (outer : Costs (Array α)) (i : Nat)
    (share : Span × ReplayWindow) (carried : α) :
    Procedure (Event α) (Solver α) (Error α) (α × Inputs α (Array α)) :=
  descendOne record outer i share.1 share.2 carried

/-- The shares of solvers whose segments start at an index. -/
def replayShares (record : AscentRecord α) (start : Nat) (members : List (Member (Solver α))) :
    List (Span × ReplayWindow) :=
  (Span.consecutive start (members.map (·.frozen.layers))).zip
    (members.map fun member => .ofRun (member.solver.pending.head?.getD 0) record.tracked)

theorem served_descendOne (record : AscentRecord α) (outer : Costs (Array α)) {total : Nat}
    (inputs : record.inputs.Sized total) (gradient : outer.Sized total)
    {members : List (Member (Solver α))}
    (stable : ∀ member ∈ members, member.solver.diagrams.sizes = member.frozen)
    (intact : ∀ member ∈ members, member.solver.intact = true) (start : Nat)
    (inside : start + (members.map (·.frozen.layers)).sum ≤ total) (position : Nat) (carried : α) :
    ∃ last moved parts,
      Served (descendShare record outer) position carried (replayShares record start members)
        members last moved parts ∧
      List.Forall₂ (Replays record) members moved := by
  induction members generalizing start position carried with
  | nil => exact ⟨carried, [], [], .nil position carried, .nil⟩
  | cons member members ih =>
      rw [List.map_cons, List.sum_cons] at inside
      have long : member.frozen.layers = member.solver.layers :=
        (congrArg Sizes.layers (stable member List.mem_cons_self)).symm
      have here := yields_descendOne record outer position
        ⟨start, start + member.frozen.layers⟩ _ carried
        ((Nat.add_sub_cancel_left start _).trans long) inputs gradient
        (by show start + member.frozen.layers ≤ total; omega) (intact member List.mem_cons_self)
        (ReplayWindow.total_ofRun _ record.tracked)
      obtain ⟨last, moved, parts, rest, replays⟩ := ih
        (fun other later => stable other (List.mem_cons_of_mem _ later))
        (fun other later => intact other (List.mem_cons_of_mem _ later))
        (start + member.frozen.layers) (by omega) (position + 1) _
      exact ⟨last, _, _, .cons here.result rest, .cons ⟨rfl, _, here.state⟩ replays⟩

/-- The gradient of all inputs, put together from what the solvers returned. -/
def gathered (record : AscentRecord α) (carried : α) (parts : List (Inputs α (Array α))) :
    Inputs α (Array α) where
  costs := joinCosts (parts.map (·.costs))
  weights := joined (parts.map (·.weights))
  damping :=
    match record.inputs.damping with
    | .shared _ => .shared carried
    | .perLayer _ => .perLayer (joined (parts.map (·.damping.toArray)))

/-- The last check. -/
def checked (gradient : Inputs α (Array α)) : Except (Error α) (Inputs α (Array α)) := do
  requireFiniteArrays
    [("grad_lo_costs", gradient.costs.lo), ("grad_hi_costs", gradient.costs.hi),
      ("grad_def_mm", gradient.costs.deferred), ("grad_dist_weights", gradient.weights),
      ("grad_omega", gradient.damping.toArray)]
  return gradient

/-- The batch is ready for the backward pass of the record: sizes and inputs fit, and the latest
runs of the solvers are those on record. -/
structure Awaits (b : Batch (Solver α)) (record : AscentRecord α) : Prop where
  sizes : b.sizes = record.sizes
  stable : b.Stable
  intact : ∀ member ∈ b.members, member.solver.intact = true
  inputs : record.inputs.Sized (b.total .layer)
  latest : b.members.map (·.solver.pending.head?.getD 0) = record.realized

omit [Zero α] [Add α] [Sub α] [Mul α] [Neg α] in
@[simp]
theorem dense_ofArray (name : String) (values : Array α) :
    (Buffer.ofArray values).dense name = .ok values :=
  congrArg Except.ok (Buffer.elements_ofArray values)

omit [Add α] [Sub α] [Mul α] [Neg α] in
theorem incoming_ofArray (name : String) {values : Array α} {length : Nat}
    (sized : values.size = length) :
    incoming name (some (.ofArray values)) length = .ok values := by
  have fits : requireSize name values length = .ok () := if_pos sized
  rw [incoming, dense_ofArray]
  show (requireSize name values length >>= fun _ => .ok values) = _
  rw [fits]
  rfl

omit [Scalar α] [Zero α] [Add α] [Sub α] [Mul α] [Neg α] in
theorem size_of_requireSize {name : String} {values : Array α} {length : Nat}
    (accepted : requireSize name values length = .ok ()) : values.size = length := by
  by_contra differs
  rw [requireSize, if_neg differs] at accepted
  cases accepted

omit [Add α] [Sub α] [Mul α] [Neg α] in
theorem size_of_incoming {name : String} {gradient : Option (Buffer α)} {length : Nat}
    {values : Array α} (accepted : incoming name gradient length = .ok values) :
    values.size = length := by
  cases gradient with
  | none =>
      cases accepted
      exact Array.size_replicate
  | some b =>
      obtain ⟨elements, -, sized⟩ := bind_eq_ok_iff.mp accepted
      obtain ⟨_, fits, same⟩ := bind_eq_ok_iff.mp sized
      cases same
      exact size_of_requireSize fits

omit [Add α] [Sub α] [Mul α] [Neg α] in
theorem sized_of_incomingBranches {gradients : OutputGradients α} {length : Nat}
    {branches : Branches (Array α)} (accepted : incomingBranches gradients length = .ok branches) :
    branches.Sized length := by
  obtain ⟨lo, low, rest⟩ := bind_eq_ok_iff.mp accepted
  obtain ⟨hi, high, same⟩ := bind_eq_ok_iff.mp rest
  cases same
  exact ⟨size_of_incoming low, size_of_incoming high⟩

/-- Nothing but the last check can fail. -/
theorem run_ascendBackward {b : Batch (Solver α)} {record : AscentRecord α}
    (awaits : Awaits b record) {gradients : OutputGradients α} {outer : Costs (Array α)}
    (branches : incomingBranches gradients (b.total .layer) = .ok outer.toBranches)
    (deferred : incoming "grad_def_mm" gradients.deferred (b.total .layer) = .ok outer.deferred) :
    ∃ last moved parts,
      Served (descendShare record outer) 0 0 (replayShares record 0 b.members) b.members last moved
        parts ∧
      List.Forall₂ (Replays record) b.members moved ∧
      ((ascendBackward record gradients).run b).state = ⟨moved⟩ ∧
      ((ascendBackward record gradients).run b).result = checked (gathered record last parts) := by
  have matched := ensureMatches_eq_ok_iff.mpr ⟨awaits.sizes, awaits.stable⟩
  have length_eq : record.inputs.costs.lo.size = b.total .layer := awaits.inputs.costs.lo
  have sizes_eq : record.sizes.map (·.layers) = b.members.map (·.frozen.layers) := by
    rw [← awaits.sizes, sizes, List.map_map]
    rfl
  have outerSized : outer.Sized (b.total .layer) :=
    ⟨sized_of_incomingBranches branches, size_of_incoming deferred⟩
  have covers : 0 + (b.members.map (·.frozen.layers)).sum ≤ b.total .layer := by
    rw [total_eq_sum, awaits.sizes]
    exact Nat.le_of_eq ((Nat.zero_add _).trans (congrArg List.sum sizes_eq.symm))
  obtain ⟨last, moved, parts, served, replays⟩ := served_descendOne record outer awaits.inputs
    outerSized awaits.stable awaits.intact 0 covers 0 0
  refine ⟨last, moved, parts, served, replays, ?_⟩
  have shares : (Layout.ofSizes .layer record.sizes).spans.zip
      (record.realized.map (ReplayWindow.ofRun · record.tracked)) =
        replayShares record 0 b.members := by
    rw [replayShares, ← sizes_eq, ← awaits.latest, List.map_map]
    rfl
  have layout : (Layout.ofSizes .layer record.sizes).require (α := α) (b.total .layer) =
      .ok () := by
    rw [total_eq_sum, awaits.sizes]
    exact Layout.require_ofSizes .layer record.sizes
  have visiting : (visitCarrying 0 (replayShares record 0 b.members)
      (descendShare record outer)).Yields b ⟨moved⟩ (last, parts) :=
    ⟨congrArg Batch.mk served.walk_eq.1, served.walk_eq.2⟩
  have rest : ∀ next : α × List (Inputs α (Array α)) → Work α (Solver α) (Inputs α (Array α)),
      (next (last, parts)).run ⟨moved⟩ = ⟨[], ⟨moved⟩, checked (gathered record last parts)⟩ →
      let outcome := (visitCarrying 0 (replayShares record 0 b.members)
        (descendShare record outer) >>= next).run b
      outcome.state = ⟨moved⟩ ∧ outcome.result = checked (gathered record last parts) := by
    intro next run_next
    obtain ⟨events, run_eq⟩ := visiting.run_bind next
    rw [run_next] at run_eq
    exact ⟨congrArg Outcome.state run_eq, congrArg Outcome.result run_eq⟩
  simp only [ascendBackward, run_read_bind, matched, run_lift_ok_bind, length_eq, branches,
    deferred, layout, shares]
  cases gradients.average.isSome with
  | false => exact rest _ (run_lift_bind_pure _ _ _)
  | true => exact rest _ (run_lift_bind_pure _ _ _)

/-- How an answer came about: the batch matched, gradients came in, and what the solvers returned
was put together and passed the last check. -/
structure Descended (b : Batch (Solver α)) (record : AscentRecord α)
    (gradients : OutputGradients α) (gradient : Inputs α (Array α)) (outer : Costs (Array α))
    (last : α) (parts : List (Inputs α (Array α))) : Prop where
  matched : b.ensureMatches record.sizes = .ok ()
  branches : incomingBranches gradients record.inputs.costs.lo.size = .ok outer.toBranches
  deferred :
    incoming "grad_def_mm" gradients.deferred record.inputs.costs.lo.size = .ok outer.deferred
  covered : (Layout.ofSizes .layer record.sizes).require (α := α) record.inputs.costs.lo.size =
    .ok ()
  walked : ((visitCarrying 0 ((Layout.ofSizes .layer record.sizes).spans.zip
    (record.realized.map (ReplayWindow.ofRun · record.tracked)))
      (descendShare record outer)).run b).result = .ok (last, parts)
  passed : checked (gathered record last parts) = .ok gradient

theorem descended_of_ok {b : Batch (Solver α)} {record : AscentRecord α}
    {gradients : OutputGradients α} {gradient : Inputs α (Array α)}
    (ok : ((ascendBackward record gradients).run b).result = .ok gradient) :
    ∃ outer last parts, Descended b record gradients gradient outer last parts := by
  rw [ascendBackward, run_read_bind] at ok
  obtain ⟨_, matched, ok⟩ := result_lift_bind_eq_ok_iff.mp ok
  obtain ⟨branches, low_high, ok⟩ := result_lift_bind_eq_ok_iff.mp ok
  obtain ⟨deferred, later, ok⟩ := result_lift_bind_eq_ok_iff.mp ok
  dsimp only at ok
  split at ok
  · obtain ⟨_, -, ok⟩ := result_bind_eq_ok_iff.mp ok
    obtain ⟨_, covered, ok⟩ := result_lift_bind_eq_ok_iff.mp ok
    obtain ⟨⟨last, parts⟩, walked, ok⟩ := result_bind_eq_ok_iff.mp ok
    obtain ⟨_, passed, same⟩ := result_lift_bind_eq_ok_iff.mp ok
    exact ⟨⟨branches, deferred⟩, last, parts, matched, low_high, later, covered, walked,
      bind_eq_ok_iff.mpr ⟨(), passed, same⟩⟩
  · obtain ⟨_, covered, ok⟩ := result_lift_bind_eq_ok_iff.mp ok
    obtain ⟨⟨last, parts⟩, walked, ok⟩ := result_bind_eq_ok_iff.mp ok
    obtain ⟨_, passed, same⟩ := result_lift_bind_eq_ok_iff.mp ok
    exact ⟨⟨branches, deferred⟩, last, parts, matched, low_high, later, covered, walked,
      bind_eq_ok_iff.mpr ⟨(), passed, same⟩⟩

end Run

end Operation

end DualAscent
