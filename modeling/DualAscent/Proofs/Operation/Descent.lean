import DualAscent.Proofs.Operation.Climb
import DualAscent.Proofs.Operation.Standing

/-!
# Gradients of dual ascents that nothing cut short

If gradients flow through all steps of a recorded ascent, its backward pass answers with what the
diagrams and the inputs determine.  Solvers take part in it one after the other: the gradient of a
shared damping factor starts at what the ones before have contributed.
-/

namespace DualAscent

open Procedure Batch Operation

variable {α : Type}

@[simp]
theorem ReplayWindow.ofRun_of_le {run most : Nat} (covered : run ≤ most) :
    ofRun run most = ⟨0, run⟩ := by
  rw [ofRun, Nat.min_eq_left covered, Nat.sub_self]

variable [Zero α] [Add α] [Sub α] [Mul α] [Neg α]

namespace Diagrams

/-- The gradient before the ascent on the `i`-th diagrams. -/
def descendAt (all : List Diagrams) (inputs : Inputs α (Array α)) (steps : Nat)
    (outer : Costs (Array α)) (carried : α) (i : Nat) (d : Diagrams) :
    Inputs α (Vector α d.layers) :=
  d.descend (inputs.map (span all i d).slice) steps (outer.map (span all i d).slice) carried

/-- The gradient before an ascent of which only the steps of a window are tracked. -/
def replay (d : Diagrams) (inputs : Inputs α (Array α)) (window : ReplayWindow)
    (outer : Costs (Array α)) (carried : α) : Inputs α (Vector α d.layers) :=
  (d.ascent inputs).sweep ((d.ascent inputs).trace window.tracked (d.climb inputs window.skip))
    ⟨outer.map (fit d.layers), Vector.replicate d.layers 0,
      startDamping (inputs.damping.map (fit d.layers)) carried⟩

/-- The gradient before the recorded ascent on the `i`-th diagrams. -/
def replayAt (all : List Diagrams) (record : AscentRecord α) (outer : Costs (Array α)) (carried : α)
    (i : Nat) (d : Diagrams) : Inputs α (Vector α d.layers) :=
  d.replay (record.inputs.map (span all i d).slice) (Call.windowOf record i)
    (outer.map (span all i d).slice) carried

end Diagrams

/-- What is carried from one descent to the next. -/
structure Descent (all : List Diagrams) (inputs : Inputs α (Array α)) (steps : Nat)
    (outer : Costs (Array α)) where
  /-- What all descents up to the `i`-th have contributed to the gradient of a shared factor. -/
  carried : Nat → α
  start : carried 0 = 0
  next : ∀ i d, all[i]? = some d → carried (i + 1) =
    (Diagrams.descendAt all inputs steps outer (carried i) i d).damping.shared?.getD (carried i)

namespace Descent

variable {all : List Diagrams} {inputs : Inputs α (Array α)} {steps : Nat} {outer : Costs (Array α)}

/-- The gradient before the ascent on the `i`-th diagrams. -/
def part (descent : Descent all inputs steps outer) (i : Nat) (d : Diagrams) :
    Inputs α (Vector α d.layers) :=
  Diagrams.descendAt all inputs steps outer (descent.carried i) i d

theorem matches_part (descent : Descent all inputs steps outer) (i : Nat) (d : Diagrams) :
    (descent.part i d).damping.Matches inputs.damping :=
  (d.matches_descend _ steps _ _).trans (Damping.matches_map inputs.damping _).symm

/-- The gradients before all ascents. -/
def parts (descent : Descent all inputs steps outer) : List (Inputs α (Array α)) :=
  all.mapIdx fun i d => (descent.part i d).map Vector.toArray

/-- The gradient of all inputs. -/
def gradient (descent : Descent all inputs steps outer) : Inputs α (Array α) where
  costs := joinCosts (descent.parts.map (·.costs))
  weights := joined (descent.parts.map (·.weights))
  damping :=
    match inputs.damping with
    | .shared _ => .shared (descent.carried all.length)
    | .perLayer _ => .perLayer (joined (descent.parts.map (·.damping.toArray)))

theorem costs_gradient (descent : Descent all inputs steps outer) :
    descent.gradient.costs = Diagrams.flatCosts all fun i d => (descent.part i d).costs := by
  rw [gradient, parts, map_mapIdx]
  rfl

end Descent

theorem Solver.oneSwept_eq_replay (record : AscentRecord α) (outer : Costs (Array α))
    (s : Solver α) (layers : Span) (window : ReplayWindow) (carried : α) :
    oneSwept record outer s layers window carried =
      s.diagrams.replay (record.inputs.map layers.slice) window (outer.map layers.slice)
        carried := by
  rw [oneSwept, Solver.swept, Ascent.checkpointedSweep_eq_sweep]
  rfl

namespace Operation

variable [Scalar α]

theorem getElem?_replayShares {b : Batch (Solver α)} {record : AscentRecord α}
    (awaits : Awaits b record) {i : Nat} {member : Member (Solver α)}
    (member_at : b.members[i]? = some member) :
    (Call.windowOf record i).total = member.solver.pending.head?.getD 0 ∧
      (replayShares record 0 b.members)[i]? =
        some (Diagrams.span b.diagrams i member.solver.diagrams, Call.windowOf record i) := by
  have latest : record.realized.getD i 0 = member.solver.pending.head?.getD 0 := by
    rw [← awaits.latest, List.getD_eq_getElem?_getD, List.getElem?_map, member_at]
    rfl
  have unchanged : member.solver.diagrams.sizes = member.frozen :=
    awaits.stable member (List.mem_of_getElem? member_at)
  have spans : Span.consecutive 0 (b.members.map (·.frozen.layers)) =
      b.sizes.mapIdx fun i size => place b.sizes i size .layer := by
    rw [← Layout.spans_ofSizes, Layout.ofSizes, sizes, List.map_map]
    rfl
  constructor
  · rw [Call.windowOf, ReplayWindow.total_ofRun, latest]
  · rw [replayShares, spans, List.getElem?_zip_eq_some, List.getElem?_mapIdx,
      getElem?_sizes member_at, List.getElem?_map, member_at, Diagrams.span,
      awaits.stable.map_sizes, unchanged, Call.windowOf, latest]
    exact ⟨rfl, rfl⟩

/-- A replay is known by what is carried up to each solver, from zero on. -/
theorem exists_replays {b : Batch (Solver α)} {record : AscentRecord α} (awaits : Awaits b record)
    {gradients : OutputGradients α} {outer : Costs (Array α)}
    (branches : incomingBranches gradients (b.total .layer) = .ok outer.toBranches)
    (deferred : incoming "grad_def_mm" gradients.deferred (b.total .layer) = .ok outer.deferred)
    {gradient : Inputs α (Array α)}
    (ok : ((ascendBackward record gradients).run b).result = .ok gradient) :
    ∃ carried : Nat → α, carried 0 = 0 ∧
      (∀ i d, b.diagrams[i]? = some d → carried (i + 1) =
        (Diagrams.replayAt b.diagrams record outer (carried i) i d).damping.shared?.getD
          (carried i)) ∧
      gradient = gathered record (carried b.diagrams.length) (b.diagrams.mapIdx fun i d =>
        (Diagrams.replayAt b.diagrams record outer (carried i) i d).map Vector.toArray) := by
  obtain ⟨last, moved, parts, served, -, -, result⟩ := run_ascendBackward awaits branches deferred
  rw [result] at ok
  obtain ⟨_, -, same⟩ := bind_eq_ok_iff.mp ok
  cases same
  obtain ⟨carried, start, finish, each⟩ := served.exists_carried
  have outerSized : outer.Sized (b.total .layer) :=
    ⟨sized_of_incomingBranches branches, size_of_incoming deferred⟩
  have part_at : ∀ i d, b.diagrams[i]? = some d →
      carried (i + 1) = (Diagrams.replayAt b.diagrams record outer (carried i) i
        d).damping.shared?.getD (carried i) ∧
      parts[i]? = some ((Diagrams.replayAt b.diagrams record outer (carried i) i
        d).map Vector.toArray) := by
    intro i d found
    rw [diagrams, List.getElem?_map] at found
    obtain ⟨member, member_at, rfl⟩ := Option.map_eq_some_iff.mp found
    obtain ⟨latest, share_at⟩ := getElem?_replayShares awaits member_at
    obtain ⟨part, part_found, answered⟩ := each i _ member share_at member_at
    have inside : (Diagrams.span b.diagrams i member.solver.diagrams).stop ≤ b.total .layer := by
      rw [b.total_eq_sum, ← awaits.stable.map_sizes]
      refine stop_place_le (Diagrams.getElem?_map_sizes ?_) .layer
      rw [diagrams, List.getElem?_map, member_at]
      rfl
    have descended := (yields_descendOne record outer i _ (Call.windowOf record i) (carried i)
      (Diagrams.length_span b.diagrams i member.solver.diagrams) awaits.inputs outerSized inside
      (awaits.intact member (List.mem_of_getElem? member_at)) latest).result
    rw [Nat.zero_add] at answered
    rw [Solver.oneSwept_eq_replay] at descended
    obtain ⟨next, same⟩ := Prod.mk.inj (Except.ok.inj (descended.symm.trans answered))
    refine ⟨?_, same ▸ part_found⟩
    rw [← next]
    exact congrArg (Option.getD · (carried i)) (Damping.shared?_map _ _)
  refine ⟨carried, start, fun i d found => (part_at i d found).1, ?_⟩
  have length_eq : b.diagrams.length = b.members.length := List.length_map _
  rw [length_eq, finish]
  refine congrArg (gathered record last) ?_
  exact eq_mapIdx (served.length_eq.trans length_eq.symm) fun i d found => (part_at i d found).2

/-- The gradient of a covered run, wherever it is awaited. -/
theorem exists_descent {b : Batch (Solver α)} {record : AscentRecord α} (awaits : Awaits b record)
    {steps : Nat} (runs : record.realized = List.replicate b.length steps)
    (covered : steps ≤ record.tracked) {gradients : OutputGradients α} {outer : Costs (Array α)}
    (branches : incomingBranches gradients (b.total .layer) = .ok outer.toBranches)
    (deferred : incoming "grad_def_mm" gradients.deferred (b.total .layer) = .ok outer.deferred)
    {gradient : Inputs α (Array α)}
    (ok : ((ascendBackward record gradients).run b).result = .ok gradient) :
    ∃ descent : Descent b.diagrams record.inputs steps outer,
      gradient = descent.gradient := by
  obtain ⟨carried, start, next, same⟩ := exists_replays awaits branches deferred ok
  have replayed : ∀ i d, b.diagrams[i]? = some d →
      Diagrams.replayAt b.diagrams record outer (carried i) i d =
        Diagrams.descendAt b.diagrams record.inputs steps outer (carried i) i d := by
    intro i d found
    have within : i < b.length := by
      rw [Batch.length, ← List.length_map (fun member => member.solver.diagrams)]
      exact (List.getElem?_eq_some_iff.mp found).1
    have window : Call.windowOf record i = ⟨0, steps⟩ := by
      rw [Call.windowOf, runs, List.getD_eq_getElem?_getD, List.getElem?_replicate, if_pos within]
      exact ReplayWindow.ofRun_of_le covered
    rw [Diagrams.replayAt, window]
    rfl
  refine ⟨⟨carried, start, fun i d found => (replayed i d found) ▸ next i d found⟩, ?_⟩
  refine same.trans (congrArg (gathered record _) (List.ext_getElem? fun i => ?_))
  rw [List.getElem?_mapIdx, Descent.parts, List.getElem?_mapIdx]
  cases found : b.diagrams[i]? with
  | none => rfl
  | some d => exact congrArg (fun part => some (part.map Vector.toArray)) (replayed i d found)

/-- Standings are all that a batch needs to have in common with the one that ascended. -/
theorem awaits_of_ok {b b' : Batch (Solver α)} {values : Inputs α (Array α)}
    {settings : AscentSettings α} (ready : b.Ready values settings)
    (same : standings b' = standings b) {gradients : OutputGradients α}
    {gradient : Inputs α (Array α)}
    (ok : ((ascendBackward (ascentRecord b values settings) gradients).run b').result =
      .ok gradient) : Awaits b' (ascentRecord b values settings) := by
  -- An answer alone shows that the latest runs are those on record; the standings show the rest.
  have passes := passesReplay_of_ok ok
  refine ⟨sizes_of_views same, ?_, fun member inside => ?_, ?_, ?_⟩
  · rw [← ensureStable_eq_ok_iff, ensureStable_of_standings same]
    exact ensureStable_eq_ok_iff.mpr ready.stable
  · obtain ⟨i, found⟩ := List.mem_iff_getElem?.mp inside
    have within := (List.getElem?_eq_some_iff.mp found).1
    have there := List.getElem?_eq_getElem (length_of_views same ▸ within)
    exact (congrArg Standing.intact (view_of_views same found there)).trans
      (ready.each _ (List.mem_of_getElem? there)).intact
  · rw [b'.total_eq_sum, sizes_of_views same]
    exact ready.sized
  · refine List.eq_replicate_iff.mpr ⟨(List.length_map _).trans (length_of_views same),
      fun run inside => ?_⟩
    obtain ⟨member, member_in, rfl⟩ := List.mem_map.mp inside
    obtain ⟨i, found⟩ := List.mem_iff_getElem?.mp member_in
    have within := length_of_views same ▸ (List.getElem?_eq_some_iff.mp found).1
    exact passes i member _ found (by simp [ascentRecord, Batch.length, within])

omit [Zero α] [Add α] [Sub α] [Mul α] [Neg α] [Scalar α] in
theorem diagrams_of_standings {b b' : Batch (Solver α)} (same : standings b = standings b') :
    b.diagrams = b'.diagrams := by
  have seen : ∀ b : Batch (Solver α), b.diagrams = (standings b).map (·.2.diagrams) := by
    intro b
    rw [standings, views, List.map_map]
    rfl
  rw [seen, seen, same]

/-- The gradients of the outputs are accepted, with this gradient of the costs. -/
structure Incoming (gradients : OutputGradients α) (length : Nat) (outer : Costs (Array α)) :
    Prop where
  branches : incomingBranches gradients length = .ok outer.toBranches
  deferred : incoming "grad_def_mm" gradients.deferred length = .ok outer.deferred

omit [Add α] [Sub α] [Mul α] [Neg α] in
theorem Incoming.unique {gradients : OutputGradients α} {length : Nat}
    {outer outer' : Costs (Array α)} (accepted : Incoming gradients length outer)
    (accepted' : Incoming gradients length outer') : outer = outer' :=
  congrArg₂ Costs.mk (Except.ok.inj (accepted.branches.symm.trans accepted'.branches))
    (Except.ok.inj (accepted.deferred.symm.trans accepted'.deferred))

theorem exists_incoming {b : Batch (Solver α)} {record : AscentRecord α}
    {gradients : OutputGradients α} {gradient : Inputs α (Array α)}
    (ok : ((ascendBackward record gradients).run b).result = .ok gradient) :
    ∃ outer, Incoming gradients record.inputs.costs.lo.size outer := by
  rw [ascendBackward, run_read_bind] at ok
  obtain ⟨_, -, ok⟩ := result_lift_bind_eq_ok_iff.mp ok
  obtain ⟨branches, low_high, ok⟩ := result_lift_bind_eq_ok_iff.mp ok
  obtain ⟨deferred, accepted, -⟩ := result_lift_bind_eq_ok_iff.mp ok
  exact ⟨⟨branches, deferred⟩, low_high, accepted⟩

/-- Whoever answers for the record of a covered ascent gives this gradient. -/
theorem descends_of_ok {b b' : Batch (Solver α)} {values : Inputs α (Array α)}
    {settings : AscentSettings α} (ready : b.Ready values settings)
    (same : standings b' = standings b) (covered : settings.iterations ≤ settings.tracked)
    {gradients : OutputGradients α} {gradient : Inputs α (Array α)}
    (ok : ((ascendBackward (ascentRecord b values settings) gradients).run b').result =
      .ok gradient) :
    ∃ outer, Incoming gradients (Sizes.total .layer b.sizes) outer ∧
      ∃ descent : Descent b.diagrams values settings.iterations outer,
        gradient = descent.gradient := by
  obtain ⟨outer, accepted⟩ := exists_incoming ok
  have total_eq : b'.total .layer = Sizes.total .layer b.sizes := by
    rw [b'.total_eq_sum, sizes_of_views same]
  have length_eq : values.costs.lo.size = Sizes.total .layer b.sizes := ready.sized.costs.lo
  have accepted : Incoming gradients (Sizes.total .layer b.sizes) outer := length_eq ▸ accepted
  refine ⟨outer, accepted, ?_⟩
  rw [← diagrams_of_standings same]
  refine exists_descent (awaits_of_ok ready same ok) ?_ covered ?_ ?_ ok
  · rw [Batch.length, length_of_views same]
    rfl
  · rw [total_eq]
    exact accepted.branches
  · rw [total_eq]
    exact accepted.deferred

end Operation

end DualAscent
