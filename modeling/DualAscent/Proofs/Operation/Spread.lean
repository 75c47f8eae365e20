import DualAscent.Proofs.Ascent.Spread
import DualAscent.Proofs.Operation.Descent
import DualAscent.Proofs.Operation.Parts

/-!
# Spreading a shared damping factor

A dual ascent may be given one damping factor, or the same factor once for each layer.  On inputs
that cover the batch both make the same runs, and their backward passes return the same gradients of
costs and weights.  What solvers carry on of the gradient of the one factor is, in exact arithmetic,
the sum of what its copies get.
-/

namespace DualAscent

open Procedure Batch Operation

variable {α : Type}

/-- The inputs with a damping factor of its own for each of so many layers. -/
def Inputs.spread (length : Nat) (inputs : Inputs α (Array α)) : Inputs α (Array α) :=
  { inputs with damping := inputs.damping.spread length }

@[simp]
theorem Inputs.costs_spread (length : Nat) (inputs : Inputs α (Array α)) :
    (inputs.spread length).costs = inputs.costs := rfl

/-- The record with a damping factor of its own for each layer. -/
def AscentRecord.spread (record : AscentRecord α) : AscentRecord α :=
  { record with inputs := record.inputs.spread record.inputs.costs.lo.size }

theorem Inputs.map_slice_spread (inputs : Inputs α (Array α)) {length : Nat} {span : Span}
    (inside : span.stop ≤ length) :
    (inputs.spread length).map span.slice = (inputs.map span.slice).spread span.length := by
  obtain ⟨costs, weights, damping⟩ := inputs
  refine congrArg (Inputs.mk _ _) ?_
  cases damping with
  | shared value =>
      refine congrArg Damping.perLayer ?_
      rw [Span.slice, Array.extract_replicate, Nat.min_eq_left inside]
      rfl
  | perLayer factors => rfl

theorem Diagrams.sameFactors_spread [Zero α] (d : Diagrams) (inputs : Inputs α (Array α)) :
    (d.ascent inputs).SameFactors (d.ascent (inputs.spread d.layers)) := by
  refine ⟨rfl, rfl, fun l => ?_⟩
  obtain ⟨costs, weights, damping⟩ := inputs
  cases damping with
  | shared value => simp [ascent, Inputs.spread, Damping.spread, Damping.map, fit]
  | perLayer factors => rfl

variable [Scalar α] [Zero α] [Add α] [Sub α] [Mul α] [Neg α]

/-- A solver makes the same run. -/
theorem Solver.run_iterate_spread (s : Solver α) (weights : Array α) (most : Nat)
    (damping : Damping α (Array α)) (slope : α) (trend : Option (TrendRequest α)) :
    (iterate weights most damping slope trend).run s =
      (iterate weights most (damping.spread s.layers) slope trend).run s := by
  cases damping with
  | perLayer factors => rfl
  | shared value =>
      have accepted : dampingSegment "omega" (.perLayer (Array.replicate s.layers value)) s.layers =
          .ok (.perLayer (Vector.replicate s.layers value)) :=
        dampingSegment_map_toArray "omega" (.perLayer (Vector.replicate s.layers value))
      have alike (weights : Vector α s.layers) :
          (⟨s.diagrams.slotOf, weights, .shared value⟩ : Ascent α s.slots s.layers).SameFactors
            ⟨s.diagrams.slotOf, weights, .perLayer (Vector.replicate s.layers value)⟩ :=
        ⟨rfl, rfl, fun l => (get_replicate value l).symm⟩
      rw [iterate_eq, iterate_eq, run_read_bind, run_read_bind, Damping.spread, accepted]
      refine run_bind_congr rfl fun weights => ?_
      simp only [dampingSegment, run_lift_ok_bind, (alike weights).run]

namespace Operation

variable {inputs : Inputs α (Array α)} {settings : AscentSettings α}

theorem run_ascendOne_spread {total : Nat} {layers bdds : Span} {s : Solver α}
    (long : layers.length = s.layers) (inside : layers.stop ≤ total) (i : Nat) :
    (ascendOne inputs settings i layers bdds).run s =
      (ascendOne (inputs.spread total) settings i layers bdds).run s := by
  let context : Context α := .run settings.iterations
  have unmoved : Fixes Solver.diagrams (attempt i context
      (.setCosts (inputs.map layers.slice).costs) : Procedure _ (Solver α) _ Unit) :=
    fixes_request (fun _ _ => rfl) rfl i _
  rw [ascendOne, ascendOne, ascendWith, ascendWith, inputs.map_slice_spread inside]
  refine run_bind_congr rfl fun _ => run_bind_congr rfl fun _ => run_bind_congr ?_ fun _ => rfl
  have running := Solver.run_iterate_spread
    ((attempt i context (.setCosts (inputs.map layers.slice).costs)).run s).state
    (inputs.map layers.slice).weights settings.iterations (inputs.map layers.slice).damping
    settings.slope (trendRequest settings layers bdds)
  rw [Solver.layers, unmoved s, show s.diagrams.layers = layers.length from long.symm] at running
  apply run_attempt_congr
  · rfl
  · exact running

/-- Solvers that still have their sizes do the same. -/
theorem run_visit_ascendOne_spread (inputs : Inputs α (Array α)) (settings : AscentSettings α)
    {b : Batch (Solver α)} (stable : b.Stable) :
    let shares := (Layout.ofSizes .layer b.sizes).spans.zip (Layout.ofSizes .bdd b.sizes).spans
    (visit shares fun i share => ascendOne inputs settings i share.1 share.2).run b =
      (visit shares fun i share =>
        ascendOne (inputs.spread (b.total .layer)) settings i share.1 share.2).run b := by
  rw [Layout.spans_ofSizes, Layout.spans_ofSizes, zip_mapIdx]
  refine run_visit_congr fun i share member share_at member_at => ?_
  rw [List.getElem?_mapIdx, getElem?_sizes member_at] at share_at
  cases share_at
  obtain ⟨long, within⟩ := stable.place_at member_at .layer
  exact run_ascendOne_spread long (within.trans_eq (b.total_eq_sum .layer).symm) i

/-- On inputs that cover the batch both ascents end alike, but for their records. -/
theorem ascend_spread {b : Batch (Solver α)} {inputs inputs' : Inputs α (Buffer α)}
    {values : Inputs α (Array α)} (dense : denseInputs inputs = .ok values)
    (dense' : denseInputs inputs' = .ok (values.spread (b.total .layer)))
    (covers : values.costs.lo.size = b.total .layer) :
    ((ascend inputs' settings).run b).state = ((ascend inputs settings).run b).state ∧
      ((ascend inputs' settings).run b).result =
        ((ascend inputs settings).run b).result.map fun answer => (answer.1, answer.2.spread) := by
  have spread : values.spread values.costs.lo.size = values.spread (b.total .layer) := by
    rw [covers]
  rcases resolve_cases b .layer values.costs.lo.size with ⟨e, refused⟩ | ⟨stable, covered⟩
  · have failed : ∀ next : Layout → Work α (Solver α) (Ascended α × AscentRecord α),
        (resolve .layer values.costs.lo.size >>= next).run b = ⟨[], b, .error e⟩ := by
      intro next
      rw [run_bind_of_error (congrArg Outcome.result refused), refused]
    rw [ascend, ascend, dense, dense', run_lift_ok_bind, run_lift_ok_bind]
    simp only [Inputs.costs_spread]
    rw [failed, failed]
    exact ⟨rfl, rfl⟩
  · have layers := yields_resolve stable .layer covered
    have bdds := yields_resolve stable .bdd (b.total_eq_sum .bdd)
    rw [ascend, ascend, dense, dense', run_lift_ok_bind, run_lift_ok_bind]
    simp only [Inputs.costs_spread]
    rw [layers.state_bind, layers.state_bind, layers.result_bind, layers.result_bind,
      run_read_bind, run_read_bind, bdds.state_bind, bdds.state_bind, bdds.result_bind,
      bdds.result_bind, run_bind, run_bind, run_visit_ascendOne_spread values settings stable]
    generalize (visit ((Layout.ofSizes .layer b.sizes).spans.zip
      (Layout.ofSizes .bdd b.sizes).spans) fun i share =>
        ascendOne (values.spread (b.total .layer)) settings i share.1 share.2).run b = visited
    obtain ⟨_, reached, result⟩ := visited
    cases result with
    | error e => exact ⟨rfl, rfl⟩
    | ok results =>
        refine ⟨rfl, congrArg Except.ok (congrArg (Prod.mk _) ?_)⟩
        rw [AscentRecord.spread, spread]

omit [Zero α] [Add α] [Sub α] [Mul α] [Neg α] in
theorem dense_perLayer_replicate (value : α) (length layers : Nat) :
    (Damping.perLayer (.ofArray (Array.replicate length value))).dense layers =
      if length = layers then .ok (.perLayer (Array.replicate length value))
      else .error (.shape "omega" layers length) := by
  rw [Damping.dense, dense_ofArray]
  show (requireSize "omega" (Array.replicate length value) layers >>= _) = _
  rw [requireSize, Array.size_replicate]
  split
  · rfl
  · rfl

omit [Zero α] [Add α] [Sub α] [Mul α] [Neg α] in
/-- One factor per layer passes the check of the inputs if there are as many layers as costs. -/
theorem denseInputs_spread (costs : Costs (Buffer α)) (weights : Buffer α) (value : α)
    (length : Nat) :
    denseInputs ⟨costs, weights, .perLayer (.ofArray (Array.replicate length value))⟩ =
      denseInputs ⟨costs, weights, .shared value⟩ >>= fun values =>
        if length = values.costs.lo.size then .ok (values.spread length)
        else .error (.shape "omega" values.costs.lo.size length) := by
  rw [denseInputs, denseInputs]
  simp only [bind_assoc]
  refine bind_congr fun costs => bind_congr fun weights => bind_congr fun _ =>
    bind_congr fun _ => ?_
  rw [dense_perLayer_replicate]
  show _ = if length = costs.lo.size then _ else _
  split
  · rfl
  · rfl

end Operation

namespace Diagrams

omit [Scalar α] in
/-- Replays return the same gradients of costs and weights, whatever they carry. -/
theorem replay_spread (d : Diagrams) (inputs : Inputs α (Array α)) (window : ReplayWindow)
    (outer : Costs (Array α)) (carried carried' : α) :
    let one := d.replay inputs window outer carried
    let each := d.replay (inputs.spread d.layers) window outer carried'
    one.costs = each.costs ∧ one.weights = each.weights := by
  have same := d.sameFactors_spread inputs
  intro one each
  simp only [one, each, replay, climb, Inputs.costs_spread, ← same.trace, ← same.after]
  exact same.sweep _ rfl rfl

omit [Scalar α] in
theorem matches_replay (d : Diagrams) (inputs : Inputs α (Array α)) (window : ReplayWindow)
    (outer : Costs (Array α)) (carried : α) :
    (d.replay inputs window outer carried).damping.Matches inputs.damping := by
  have matched := (Damping.matches_map inputs.damping (fit d.layers)).symm
  exact Ascent.matches_sweep _ _ (matches_startDamping matched carried)

section Exact

variable {R : Type} [CommRing R]

/-- Both gradients of the damping gain the same. -/
theorem total_replay_spread (d : Diagrams) (inputs : Inputs R (Array R)) (window : ReplayWindow)
    (outer : Costs (Array R)) (carried carried' : R) :
    let one := d.replay inputs window outer carried
    let each := d.replay (inputs.spread d.layers) window outer carried'
    ∃ amount,
      one.damping.total =
        (startDamping (inputs.damping.map (fit d.layers)) carried).total + amount ∧
      each.damping.total =
        (startDamping ((inputs.spread d.layers).damping.map (fit d.layers)) carried').total +
          amount := by
  have same := d.sameFactors_spread inputs
  intro one each
  simp only [one, each, replay, climb, Inputs.costs_spread, ← same.trace, ← same.after]
  exact same.total_sweep _ rfl rfl

/-- A shared factor gains what the layers gain together. -/
theorem shared_replay (d : Diagrams) {inputs : Inputs R (Array R)} {value : R}
    (shared : inputs.damping = .shared value) (window : ReplayWindow) (outer : Costs (Array R))
    (carried carried' : R) :
    (d.replay inputs window outer carried).damping = .shared
      (carried + (d.replay (inputs.spread d.layers) window outer carried').damping.total) := by
  obtain ⟨amount, one, each⟩ := d.total_replay_spread inputs window outer carried carried'
  have matched := (d.matches_replay inputs window outer carried).symm
  rw [shared] at one matched
  obtain ⟨total, kind⟩ := matched.of_shared
  have start : (startDamping ((inputs.spread d.layers).damping.map (fit d.layers))
      carried').total = 0 := by
    rw [Inputs.spread, shared]
    exact Finset.sum_eq_zero fun l _ => get_replicate 0 l
  rw [start, zero_add] at each
  rw [kind] at one ⊢
  rw [each]
  exact congrArg Damping.shared one

end Exact

end Diagrams

section Exact

variable {R : Type} [CommRing R]

theorem sum_toArray_damping {n : Nat} (damping : Damping R (Vector R n)) :
    (damping.map Vector.toArray).toArray.sum = damping.total := by
  cases damping with
  | shared value => exact Array.sum_singleton
  | perLayer values =>
      have folded : values.toArray.sum = values.foldl (· + ·) 0 := Array.sum_eq_foldl
      exact folded.trans ((foldl_add_eq_sum values 0).trans (zero_add _))

/-- What is carried adds up to the sum of all entries. -/
theorem sum_joined_mapIdx {ι : Type} (all : List ι) (part : Nat → ι → Array R) (carried : Nat → R)
    (next : ∀ i a, all[i]? = some a → carried (i + 1) = carried i + (part i a).sum) :
    carried all.length = carried 0 + (joined (all.mapIdx part)).sum := by
  induction all generalizing part carried with
  | nil => simp [joined]
  | cons a all ih =>
      have rest := ih (fun i => part (i + 1)) (fun i => carried (i + 1))
        fun i a found => next (i + 1) a found
      have split (first : Array R) (others : List (Array R)) :
          (joined (first :: others)).sum = first.sum + (joined others).sum := Array.sum_append
      rw [List.length_cons, rest, Nat.zero_add, next 0 a rfl, List.mapIdx_cons, split, add_assoc]

end Exact

namespace Operation

/-- The gradient before the recorded ascent on the `i`-th diagrams, with a factor for each of their
layers. -/
def spreadReplayAt (all : List Diagrams) (record : AscentRecord α) (outer : Costs (Array α))
    (carried : α) (i : Nat) (d : Diagrams) : Inputs α (Vector α d.layers) :=
  d.replay ((record.inputs.map (Diagrams.span all i d).slice).spread d.layers)
    (Call.windowOf record i) (outer.map (Diagrams.span all i d).slice) carried

omit [Scalar α] in
theorem replayAt_spread {all : List Diagrams} {record : AscentRecord α} {i : Nat} {d : Diagrams}
    (found : all[i]? = some d) (covers : record.inputs.costs.lo.size = Sizes.total .layer
      (all.map Diagrams.sizes)) (outer : Costs (Array α)) (carried : α) :
    Diagrams.replayAt all record.spread outer carried i d =
      spreadReplayAt all record outer carried i d := by
  have inside : (Diagrams.span all i d).stop ≤ record.inputs.costs.lo.size :=
    covers ▸ stop_place_le (Diagrams.getElem?_map_sizes found) .layer
  have sliced := record.inputs.map_slice_spread inside
  rw [Diagrams.length_span] at sliced
  rw [Diagrams.replayAt, AscentRecord.spread, sliced]
  rfl

omit [Scalar α] in
theorem size_spreadReplayAt {all : List Diagrams} {record : AscentRecord α} {value : α}
    (shared : record.inputs.damping = .shared value) (outer : Costs (Array α)) (carried : α)
    (i : Nat) (d : Diagrams) :
    ((spreadReplayAt all record outer carried i d).map Vector.toArray).damping.toArray.size =
      d.layers := by
  have kind : ((record.inputs.map (Diagrams.span all i d).slice).spread d.layers).damping =
      .perLayer (Array.replicate d.layers value) := by
    rw [Inputs.spread, Inputs.map, shared]
    rfl
  have matched : (spreadReplayAt all record outer carried i d).damping.Matches
      (.perLayer (Array.replicate d.layers value) : Damping α (Array α)) := by
    rw [← kind]
    exact d.matches_replay _ _ _ _
  exact (Inputs.sized_toArray _).damping.size_toArray ((Damping.matches_map _ _).symm.trans matched)

/-- What two answers for the same gradients have gathered, one for a record and one for the record
with a factor for each layer. -/
theorem exists_gathered {b b' : Batch (Solver α)} (alike : b.diagrams = b'.diagrams)
    {record : AscentRecord α} (awaits : Awaits b record) (awaits' : Awaits b' record.spread)
    {gradients : OutputGradients α} {gradient gradient' : Inputs α (Array α)}
    (ok : ((ascendBackward record gradients).run b).result = .ok gradient)
    (ok' : ((ascendBackward record.spread gradients).run b').result = .ok gradient') :
    ∃ (outer : Costs (Array α)) (carried carried' : Nat → α), carried 0 = 0 ∧
      (∀ i d, b.diagrams[i]? = some d → carried (i + 1) =
        (Diagrams.replayAt b.diagrams record outer (carried i) i d).damping.shared?.getD
          (carried i)) ∧
      gradient = gathered record (carried b.diagrams.length) (b.diagrams.mapIdx fun i d =>
        (Diagrams.replayAt b.diagrams record outer (carried i) i d).map Vector.toArray) ∧
      gradient' = gathered record.spread (carried' b.diagrams.length) (b.diagrams.mapIdx fun i d =>
        (spreadReplayAt b.diagrams record outer (carried' i) i d).map Vector.toArray) := by
  have length_eq : record.inputs.costs.lo.size = b.total .layer := awaits.inputs.costs.lo
  have length_eq' : record.inputs.costs.lo.size = b'.total .layer := awaits'.inputs.costs.lo
  obtain ⟨outer, accepted⟩ := exists_incoming ok
  obtain ⟨outer', accepted'⟩ := exists_incoming ok'
  cases accepted.unique accepted'
  obtain ⟨carried, start, next, same⟩ :=
    exists_replays awaits (length_eq ▸ accepted.branches) (length_eq ▸ accepted.deferred) ok
  obtain ⟨carried', -, -, same'⟩ :=
    exists_replays awaits' (length_eq' ▸ accepted.branches) (length_eq' ▸ accepted.deferred) ok'
  refine ⟨outer, carried, carried', start, next, same, ?_⟩
  rw [← alike] at same'
  refine same'.trans (congrArg (gathered record.spread _) ?_)
  rw [List.mapIdx_eq_mapIdx_iff]
  intro i within
  rw [replayAt_spread (List.getElem?_eq_getElem within)]
  rw [length_eq, b.total_eq_sum, awaits.stable.map_sizes]

section Gradients

variable {b b' : Batch (Solver α)} (alike : b.diagrams = b'.diagrams) {record : AscentRecord α}
  (awaits : Awaits b record) (awaits' : Awaits b' record.spread) {gradients : OutputGradients α}
  {gradient gradient' : Inputs α (Array α)}
  (ok : ((ascendBackward record gradients).run b).result = .ok gradient)
  (ok' : ((ascendBackward record.spread gradients).run b').result = .ok gradient')
include alike awaits awaits' ok ok'

theorem costs_weights_spread :
    gradient.costs = gradient'.costs ∧ gradient.weights = gradient'.weights := by
  obtain ⟨outer, carried, carried', -, -, rfl, rfl⟩ := exists_gathered alike awaits awaits' ok ok'
  have each (i : Nat) (d : Diagrams) :
      (Diagrams.replayAt b.diagrams record outer (carried i) i d).costs =
          (spreadReplayAt b.diagrams record outer (carried' i) i d).costs ∧
        (Diagrams.replayAt b.diagrams record outer (carried i) i d).weights =
          (spreadReplayAt b.diagrams record outer (carried' i) i d).weights :=
    d.replay_spread _ _ _ _ _
  simp only [gathered, map_mapIdx, Inputs.map, (each _ _).1, (each _ _).2, and_self]

end Gradients

section Exact

variable {R : Type} [CommRing R] [Scalar R]

/-- The gradient of a shared damping factor is the sum of those of as many factors as layers. -/
theorem damping_spread {b b' : Batch (Solver R)} (alike : b.diagrams = b'.diagrams)
    {record : AscentRecord R} (awaits : Awaits b record) (awaits' : Awaits b' record.spread)
    {gradients : OutputGradients R} {gradient gradient' : Inputs R (Array R)}
    (ok : ((ascendBackward record gradients).run b).result = .ok gradient)
    (ok' : ((ascendBackward record.spread gradients).run b').result = .ok gradient')
    {value : R} (shared : record.inputs.damping = .shared value) :
    ∃ entries, gradient'.damping = .perLayer entries ∧ entries.size = b.total .layer ∧
      gradient.damping = .shared entries.sum := by
  obtain ⟨outer, carried, carried', start, next, rfl, rfl⟩ :=
    exists_gathered alike awaits awaits' ok ok'
  let each (i : Nat) (d : Diagrams) : Inputs R (Array R) :=
    (spreadReplayAt b.diagrams record outer (carried' i) i d).map Vector.toArray
  have spread : record.spread.inputs.damping =
      .perLayer (Array.replicate record.inputs.costs.lo.size value) := by
    rw [AscentRecord.spread, Inputs.spread, shared]
    rfl
  have adds : ∀ i d, b.diagrams[i]? = some d →
      carried (i + 1) = carried i + (each i d).damping.toArray.sum := by
    intro i d found
    have sliced : (record.inputs.map (Diagrams.span b.diagrams i d).slice).damping =
        .shared value := by
      rw [Inputs.map, shared]
      rfl
    have gains := d.shared_replay sliced (Call.windowOf record i)
      (outer.map (Diagrams.span b.diagrams i d).slice) (carried i) (carried' i)
    rw [next i d found, Diagrams.replayAt, gains]
    exact congrArg (carried i + ·) (sum_toArray_damping _).symm
  have total := sum_joined_mapIdx b.diagrams (fun i d => (each i d).damping.toArray) carried adds
  have layered : List.Forall₂ (fun size entries => entries.size = size.segment .layer)
      (b.diagrams.map Diagrams.sizes)
      (b.diagrams.mapIdx fun i d => (each i d).damping.toArray) := by
    refine List.forall₂_iff_get.mpr ⟨by simp, fun i inside _ => ?_⟩
    rw [List.get_eq_getElem, List.get_eq_getElem, List.getElem_map, List.getElem_mapIdx]
    exact size_spreadReplayAt shared outer (carried' i) i _
  have entries_eq : joined ((b.diagrams.mapIdx each).map (·.damping.toArray)) =
      joined (b.diagrams.mapIdx fun i d => (each i d).damping.toArray) := by
    rw [map_mapIdx]
  refine ⟨joined ((b.diagrams.mapIdx each).map (·.damping.toArray)), ?_, ?_, ?_⟩
  · rw [gathered, spread]
  · rw [entries_eq, size_joined .layer layered, b.total_eq_sum, awaits.stable.map_sizes]
  · rw [gathered, shared, total, start, zero_add, entries_eq]

end Exact

end Operation

end DualAscent
