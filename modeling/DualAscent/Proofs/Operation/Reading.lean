import DualAscent.Proofs.Operation.Transpose
import DualAscent.Proofs.Solver.Reading

/-!
# Redistributed costs are read alike

A redistribution leaves nothing deferred.  In exact arithmetic the operations that read branch costs
and bind nothing deferred answer on what it returns as the solvers do when they are handed the costs
before it, deferred min-marginals included.
-/

namespace DualAscent

open Procedure Batch

/-- The operations that read costs without changing them. -/
inductive Reading where
  /-- Lower bounds of all diagrams. -/
  | bounds
  /-- Min-marginal differences of all layers. -/
  | margins
  /-- Branch choices of all layers. -/
  | choices

namespace Reading

variable {α : Type}

/-- What a solver with these segments is asked for. -/
def request (segments : Segmentation → Span) : Reading → Request α (Array α)
  | bounds => .lowerBounds (segments .bdd).length
  | margins => .minMarginals (segments .layer).length
  | choices => .solution (segments .layer).length

/-- The segments that a failure names. -/
def place (segments : Segmentation → Span) : Reading → Place
  | bounds => [(.layer, segments .layer), (.bdd, segments .bdd)]
  | margins => [(.layer, segments .layer)]
  | choices => [(.layer, segments .layer)]

theorem reads_request (reading : Reading) (segments : Segmentation → Span) :
    (reading.request segments : Request α (Array α)).routine.reads = true := by
  cases reading with
  | bounds => rfl
  | margins => rfl
  | choices => rfl

variable [Scalar α] [Zero α] [Add α] [Sub α] [Mul α] [Neg α]

/-- The operation on branch costs, with nothing deferred. -/
def perform (branches : Branches (Array α)) : Reading → Work α (Solver α) (Array α)
  | bounds => Prod.fst <$> Operation.lowerBounds (branches.map .ofArray)
  | margins => Prod.fst <$> Operation.minMarginals (branches.map .ofArray)
  | choices => Operation.solution (branches.map .ofArray)

/-- Hands one solver its costs, deferred min-marginals included, and asks it. -/
def askOne (reading : Reading) (costs : Costs (Array α)) (i : Nat)
    (segments : Segmentation → Span) : Procedure (Event α) (Solver α) (Error α) (Array α) := do
  let context := Context.segments (reading.place segments)
  attempt i context (.setCosts (costs.map (segments .layer).slice))
  attempt i context (reading.request segments)

/-- Hands every solver its costs, deferred min-marginals included, and asks it. -/
def ask (reading : Reading) (costs : Costs (Array α)) : Work α (Solver α) (Array α) := do
  let b ← read
  let answers ← visit b.sizes fun i size => reading.askOne costs i (DualAscent.place b.sizes i size)
  return joined answers

/-- The work of one solver in the operation. -/
def one (reading : Reading) (branches : Branches (Array α)) (i : Nat)
    (segments : Segmentation → Span) : Procedure (Event α) (Solver α) (Error α) (Array α) :=
  match reading with
  | bounds => Operation.lowerBoundsOne branches i (segments .layer) (segments .bdd)
  | margins => Operation.minMarginalsOne branches i (segments .layer)
  | choices => Operation.solutionOne branches i (segments .layer)

variable {b : Batch (Solver α)} {branches : Branches (Array α)}

/-- The solvers are visited one after the other, and their answers put together. -/
theorem result_perform (reading : Reading) (sized : branches.Sized (Sizes.total .layer b.sizes))
    (stable : b.Stable) :
    ((reading.perform branches).run b).result =
      ((visit b.sizes fun i size => reading.one branches i (DualAscent.place b.sizes i size)).run
        b).result.map joined := by
  have layers := yields_resolve stable .layer sized.lo
  have bdds := yields_resolve stable .bdd (b.total_eq_sum .bdd)
  have first {work : Work α (Solver α) (List (Array α))}
      {saved : Saved (Branches (Array α))} :
      ((work >>= fun results => pure (joined results, saved)).run b).result.map Prod.fst =
        (work.run b).result.map joined := by
    refine (congrArg (Except.map Prod.fst)
      (result_map (fun results => (joined results, saved)) work b)).trans ?_
    cases (work.run b).result with
    | error e => rfl
    | ok results => rfl
  cases reading with
  | bounds =>
      rw [perform, result_map, Operation.lowerBounds, Operation.denseBranches_ofArray sized,
        run_lift_ok_bind, layers.result_bind, run_read_bind, bdds.result_bind, first,
        Layout.spans_ofSizes, Layout.spans_ofSizes, zip_mapIdx, visit_mapIdx]
      rfl
  | margins =>
      rw [perform, result_map, Operation.minMarginals, Operation.denseBranches_ofArray sized,
        run_lift_ok_bind, layers.result_bind, run_read_bind, first, Layout.spans_ofSizes,
        visit_mapIdx]
      rfl
  | choices =>
      rw [perform, Operation.solution, Operation.denseBranches_ofArray sized, run_lift_ok_bind,
        layers.result_bind, Layout.spans_ofSizes, visit_mapIdx]
      exact result_map joined _ b

theorem result_ask (reading : Reading) (costs : Costs (Array α)) :
    ((reading.ask costs).run b).result =
      ((visit b.sizes fun i size => reading.askOne costs i (DualAscent.place b.sizes i size)).run
        b).result.map joined := by
  rw [ask, run_read_bind]
  exact result_map joined _ b

/-- If the prices are the same, so is what a solver answers. -/
theorem result_one (reading : Reading) {s : Solver α} (intact : s.intact = true)
    {segments : Segmentation → Span} {total : Nat} (long : (segments .layer).length = s.layers)
    (inside : (segments .layer).stop ≤ total) (sized : branches.Sized total)
    {costs : Costs (Array α)} (sized' : costs.Sized total) (i : Nat)
    (same : (s.diagrams.undeferred (branches.map (segments .layer).slice)).SamePrices
      ((costs.map (segments .layer).slice).map (fit s.layers))) :
    ((reading.one branches i segments).run s).result =
      ((reading.askOne costs i segments).run s).result := by
  let context : Context α := .segments (reading.place segments)
  have bare := Operation.yields_bindUndeferred sized long inside intact i context
  have full := Operation.yields_bindSlices intact long inside i sized' context
  let bound : Solver α :=
    { s with costs := s.diagrams.undeferred (branches.map (segments .layer).slice) }
  have asked : ((reading.one branches i segments).run s).result =
      ((attempt i context (reading.request segments)).run bound).result := by
    cases reading with
    | bounds => exact ((Yields.log _ s).result_bind _).trans (bare.result_bind _)
    | margins => exact ((Yields.log _ s).result_bind _).trans (bare.result_bind _)
    | choices => exact bare.result_bind _
  rw [asked, askOne, full.result_bind]
  exact (agrees_attempt (Solver.agrees_reading (reading.reads_request segments)) i context
    (Solver.prices_eq same)).result

theorem agrees_perform (reading : Reading) (branches : Branches (Array α)) :
    Agrees standings unseen (reading.perform branches) := by
  cases reading with
  | bounds => exact (Operation.agrees_lowerBounds _).bind fun _ => .pure _
  | margins => exact (Operation.agrees_minMarginals _).bind fun _ => .pure _
  | choices => exact Operation.agrees_solution _

theorem agrees_ask (reading : Reading) (costs : Costs (Array α)) :
    Agrees standings unseen (reading.ask costs) := by
  refine .read_bind (fun b b' same => ?_) fun b => Agrees.bind ?_ fun _ => .pure _
  · rw [sizes_of_views same]
  refine agrees_visit Solver.unrun (fun i size => ?_) _
  refine (Operation.agrees_setCosts i _ _).bind fun _ => Operation.agrees_request ?_ i _
  cases reading with
  | bounds => rfl
  | margins => rfl
  | choices => rfl

end Reading

section Joined

variable {α σ : Type} {b : Batch σ} {kind : Segmentation}

theorem Operation.slice_joinCosts {size : Fin b.members.length → Nat}
    (long : ∀ i, (b.placeAt i kind).length = size i)
    (part : (i : Fin b.members.length) → Costs (Vector α (size i))) (i : Fin b.members.length) :
    (joinCosts (List.ofFn fun i => (part i).map Vector.toArray)).map (b.placeAt i kind).slice =
      (part i).map Vector.toArray := by
  have filled (family : (i : Fin b.members.length) → Vector α (size i)) (i) :
      (family i).toArray.size = (b.placeAt i kind).length :=
    (family i).size_toArray.trans (long i).symm
  simp only [joinCosts, List.map_ofFn, Function.comp_def, Costs.map,
    slice_joined_ofFn (filled fun i => (part i).lo),
    slice_joined_ofFn (filled fun i => (part i).hi),
    slice_joined_ofFn (filled fun i => (part i).deferred)]

end Joined

namespace Operation

variable {α : Type} [Scalar α] [Zero α] [Add α] [Sub α] [Mul α] [Neg α] {b : Batch (Solver α)}

/-- Solvers that redistributed were able to, and this is what they returned. -/
theorem able_of_redistribute {costs : Costs (Buffer α)}
    {answer : Costs (Array α) × Saved (Costs (Array α))}
    (ok : ((redistribute costs).run b).result = .ok answer) :
    b.Able .distributeDelta ∧
      (costs.map Buffer.elements).Sized (Sizes.total .layer b.sizes) ∧
      answer = (Linear.redistribution.answer b (costs.map Buffer.elements),
        ⟨costs.map Buffer.elements, b.sizes⟩) := by
  obtain ⟨_, dense, -⟩ := result_lift_bind_eq_ok_iff.mp ok
  obtain rfl := Costs.elements_of_dense dense
  have same : (redistribute costs : Work α (Solver α) _) =
      redistribute ((costs.map Buffer.elements).map .ofArray) := by
    rw [redistribute, redistribute, dense, Costs.dense_ofArray]
  let op : Linear α (Costs (Array α)) (Costs (Array α)) := .redistribution
  have forward : ((op.forward (costs.map Buffer.elements)).run b).result = .ok answer := by
    rw [← ok, same]
    rfl
  obtain ⟨able, fits⟩ := op.able_of_forward forward
  exact ⟨able, fits, Except.ok.inj (forward.symm.trans (op.forward_of_able able fits))⟩

section Redistributed

variable (stable : b.Stable) {costs : Costs (Array α)}

/-- The redistributed costs of all solvers. -/
def redistributed (b : Batch (Solver α)) (costs : Costs (Array α)) : Costs (Array α) :=
  Linear.redistribution.answer b costs

include stable

theorem sized_redistributed : (redistributed b costs).Sized (Sizes.total .layer b.sizes) :=
  sized_joinCosts_ofFn stable.length_layers _

theorem lo_redistributed (sized : costs.Sized (Sizes.total .layer b.sizes)) :
    (redistributed b costs).lo = costs.lo := by
  rw [redistributed, Linear.answer, joinCosts, List.map_ofFn]
  exact joined_fit sized.lo stable.length_layers

theorem deferred_redistributed :
    (redistributed b costs).deferred = Array.replicate (Sizes.total .layer b.sizes) 0 := by
  refine Array.eq_replicate_iff.mpr ⟨(sized_redistributed stable).deferred, fun value member => ?_⟩
  simp only [redistributed, Linear.answer, joinCosts, List.map_ofFn, mem_joined_ofFn] at member
  obtain ⟨i, member⟩ := member
  exact (Array.mem_replicate.mp member).2

variable (i : Fin b.members.length)

theorem map_slice_redistributed :
    (redistributed b costs).map (b.placeAt i .layer).slice =
      (workingAt b i costs).distribute.map Vector.toArray :=
  slice_joinCosts stable.length_layers (fun i => (workingAt b i costs).distribute) i

theorem workingAt_redistributed :
    workingAt b i (redistributed b costs) = (workingAt b i costs).distribute := by
  rw [workingAt, map_slice_redistributed stable, Costs.map_fit_toArray]

theorem undeferred_redistributed :
    (b.solverAt i).diagrams.undeferred
        ((redistributed b costs).toBranches.map (b.placeAt i .layer).slice) =
      (workingAt b i costs).distribute := by
  show (⟨(workingAt b i (redistributed b costs)).toBranches, Vector.replicate _ 0⟩ : Costs _) = _
  rw [workingAt_redistributed stable]
  rfl

omit i in
theorem redistributed_redistributed (exact : ∀ a : α, a + 0 = a) :
    redistributed b (redistributed b costs) = redistributed b costs := by
  show joinCosts (List.ofFn fun i =>
    (workingAt b i (redistributed b costs)).distribute.map Vector.toArray) = _
  simp only [workingAt_redistributed stable, Costs.distribute_distribute exact]
  rfl

end Redistributed

/-- A redistribution keeps the costs of the low branches and leaves nothing deferred.  In exact
arithmetic, bounds, min-marginal differences and branch choices of what it returns are those that
the solvers themselves tell of the costs before it, deferred min-marginals included; and
redistributing once more changes nothing. -/
theorem redistribute_keeps_readings {b b' : Batch (Solver α)} (same : standings b' = standings b)
    {costs : Costs (Buffer α)} {answer : Costs (Array α)} {record : Saved (Costs (Array α))}
    (ok : ((redistribute costs).run b).result = .ok (answer, record)) :
    (answer.lo = costs.lo.elements ∧ answer.deferred = Array.replicate (b.total .layer) 0 ∧
        answer.hi.size = b.total .layer) ∧
      ((∀ a : α, a + 0 = a) →
        (∀ reading : Reading, ((reading.perform answer.toBranches).run b').result =
          ((reading.ask (costs.map Buffer.elements)).run b').result) ∧
        ∃ record',
          ((redistribute (answer.map .ofArray)).run b').result = .ok (answer, record')) := by
  obtain ⟨able, sized, returned⟩ := able_of_redistribute ok
  obtain rfl : answer = redistributed b (costs.map Buffer.elements) := congrArg Prod.fst returned
  have stable := able.stable
  have moved : (redistributed b (costs.map Buffer.elements)).Sized (Sizes.total .layer b.sizes) :=
    sized_redistributed stable
  rw [total_eq_sum]
  refine ⟨⟨lo_redistributed stable sized, deferred_redistributed stable, moved.hi⟩,
    fun exact => ⟨fun reading => ?_, ?_⟩⟩
  · rw [(reading.agrees_perform _ same).result, (reading.agrees_ask _ same).result,
      reading.result_perform moved.toSized stable, reading.result_ask]
    refine congrArg (Except.map joined) (result_visit_congr _ rfl
      fun i size member member' size_i member_i member_i' => ?_)
    obtain ⟨within, rfl⟩ := List.getElem?_eq_some_iff.mp member_i
    obtain rfl := Option.some.inj (member_i.symm.trans member_i')
    obtain rfl := Option.some.inj ((getElem?_sizes_eq_some ⟨i, within⟩).symm.trans size_i)
    refine reading.result_one (able.intact ⟨i, within⟩) (stable.length_layers ⟨i, within⟩)
      (stop_placeAt_le ⟨i, within⟩ .layer) moved.toSized sized i ?_
    exact (undeferred_redistributed stable ⟨i, within⟩) ▸ Costs.samePrices_distribute exact _
  · rw [(agrees_redistribute _ same).result]
    let op : Linear α (Costs (Array α)) (Costs (Array α)) := .redistribution
    let settled := redistributed b (costs.map Buffer.elements)
    have again : ((op.forward settled).run b).result =
        .ok (redistributed b settled, ⟨settled, b.sizes⟩) := op.forward_of_able able moved
    rw [redistributed_redistributed stable exact] at again
    exact ⟨_, again⟩

/-- Deferred min-marginals enter every bound; the bounds of the redistributed costs are the same,
also for the solvers that redistributed them. -/
theorem repeating_keeps_readings :
    let costs : Costs (Buffer ℚ) :=
      ⟨⟨.ofArray #[1, 0, 2, 0, 3, 0], .ofArray #[2, 0, 1, 0, 1 / 2, 0]⟩,
        .ofArray #[-3, 0, 1 / 2, 0, 5, 1]⟩
    let call := (redistribute costs).run Linear.repeating
    ∃ answer record, call.result = .ok (answer, record) ∧
      answer.deferred = #[0, 0, 0, 0, 0, 0] ∧
      ((Reading.bounds.perform answer.toBranches).run call.state).result =
        .ok #[-1, 3 / 2, 3] := by
  intro costs call
  have answered : call.result.toOption.isSome = true := by decide +kernel
  obtain ⟨⟨answer, record⟩, found⟩ := Option.isSome_iff_exists.mp answered
  have ok := toOption_eq_some_iff.mp found
  have standing : standings call.state = standings Linear.repeating :=
    fixes_redistribute (fun _ _ => rfl) _ Linear.repeating
  obtain ⟨⟨-, settled, -⟩, exact⟩ := redistribute_keeps_readings standing ok
  have asked : ((Reading.bounds.ask (costs.map Buffer.elements)).run call.state).result.toOption =
      some #[-1, 3 / 2, 3] := by
    decide +kernel
  exact ⟨answer, record, ok, settled,
    ((exact add_zero).1 .bounds).trans (toOption_eq_some_iff.mp asked)⟩

end Operation

end DualAscent
