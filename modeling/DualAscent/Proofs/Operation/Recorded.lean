import DualAscent.Proofs.Finite
import DualAscent.Proofs.Operation.Ledger

/-!
# Recorded dual ascents

A dual ascent is refused before any solver is asked, or it breaks off for lack of memory, or it
enters the length of its run in the ledger of every solver and keeps these lengths on record.  Its
backward pass settles these entries, whether or not the gradients turn out finite.
-/

namespace DualAscent

open Procedure Batch

variable {α : Type}

namespace Operation

variable [Scalar α] [Zero α] [Add α] [Sub α] [Mul α] [Neg α]

/-- The record is one of this batch, whose solvers are ready for its backward pass but for their
latest runs. -/
structure Belongs (b : Batch (Solver α)) (record : AscentRecord α) : Prop where
  sizes : b.sizes = record.sizes
  stable : b.Stable
  intact : ∀ member ∈ b.members, member.solver.intact = true
  inputs : record.inputs.Sized (b.total .layer)
  runs : record.realized.length = b.members.length

/-- The part of a solver's entry that neither a run nor a replay changes. -/
def frame (entry : Sizes × Ledger) : Sizes × Diagrams × Bool :=
  (entry.1, entry.2.diagrams, entry.2.intact)

theorem Belongs.of_frames {b b' : Batch (Solver α)} {record : AscentRecord α}
    (same : (ledgers b').map frame = (ledgers b).map frame) (belongs : Belongs b record) :
    Belongs b' record := by
  rw [ledgers, views, List.map_map, views, List.map_map] at same
  have sizes_eq : b'.sizes = b.sizes := by
    have frozen := congrArg (List.map Prod.fst) same
    rwa [List.map_map, List.map_map] at frozen
  have before : ∀ member ∈ b'.members, ∃ other ∈ b.members, other.frozen = member.frozen ∧
      other.solver.diagrams = member.solver.diagrams ∧
        other.solver.intact = member.solver.intact := by
    intro member inside
    have framed : frame (member.frozen, member.solver.ledger) ∈
        b'.members.map (frame ∘ fun member => (member.frozen, member.solver.ledger)) :=
      List.mem_map_of_mem inside
    rw [same] at framed
    obtain ⟨other, there, equal⟩ := List.mem_map.mp framed
    exact ⟨other, there, congrArg (·.1) equal, congrArg (·.2.1) equal, congrArg (·.2.2) equal⟩
  refine ⟨sizes_eq.trans belongs.sizes, fun member inside => ?_, fun member inside => ?_, ?_, ?_⟩
  · obtain ⟨other, there, frozen, diagrams, -⟩ := before member inside
    rw [← frozen]
    exact (congrArg Diagrams.sizes diagrams.symm).trans (belongs.stable other there)
  · obtain ⟨other, there, -, -, intact⟩ := before member inside
    exact intact.symm.trans (belongs.intact other there)
  · rw [b'.total_eq_sum, sizes_eq, ← b.total_eq_sum]
    exact belongs.inputs
  · have length_eq := congrArg List.length same
    rw [List.length_map, List.length_map] at length_eq
    rw [length_eq]
    exact belongs.runs

/-- The share of one solver, as spans pair up. -/
def ascendShare (inputs : Inputs α (Array α)) (settings : AscentSettings α) (i : Nat)
    (share : Span × Span) :
    Procedure (Event α) (Solver α) (Error α) (Realized α × Costs (Array α)) :=
  ascendOne inputs settings i share.1 share.2

section One

variable {s : Solver α} (i : Nat) (context : Context α)

theorem attempt_setCosts_cases {costs : Costs (Array α)} (sized : costs.Sized s.layers) :
    ((attempt i context (.setCosts costs)).run s).result = .error (.misuse .deferredLost) ∨
      s.intact = true ∧ ∃ bound,
        (attempt i context (.setCosts costs)).Yields s bound () ∧ bound.ledger = s.ledger := by
  rcases Solver.setCosts_cases sized with lost | ⟨intact, bound, yields, same⟩
  · exact .inl (attempt_misuse lost i context)
  · exact .inr ⟨intact, bound, yields_attempt i context yields, same⟩

theorem attempt_iterations_cases (intact : s.intact = true) {inputs : Inputs α (Array α)}
    (sized : inputs.Sized s.layers) (most : Nat) (slope : α) {trend : Option (TrendRequest α)}
    (fits : ∀ asked ∈ trend, asked.room = ⟨s.layers, s.bdds, s.bdds⟩) :
    let running : Procedure (Event α) (Solver α) (Error α) (Realized α) :=
      attempt i context (.iterations inputs.weights most inputs.damping slope trend)
    (running.run s).result = .error (.misuse .outOfMemory) ∨
      ∃ reached realized, running.Yields s reached realized ∧
        reached.ledger = s.ledger.enter realized.iterations := by
  rcases Solver.iterations_of_fits intact sized.weights most sized.damping slope fits with
    broken | ⟨realized, answered, entry⟩
  · exact .inl (attempt_misuse broken i context)
  · exact .inr ⟨_, realized, yields_attempt i context ⟨rfl, answered⟩, entry⟩

omit [Scalar α] [Zero α] [Add α] [Sub α] [Mul α] [Neg α] in
theorem room_trendRequest (settings : AscentSettings α) (layers bdds : Span) :
    ∀ asked ∈ trendRequest settings layers bdds,
      asked.room = ⟨layers.length, bdds.length, bdds.length⟩ := by
  intro asked found
  rw [trendRequest] at found
  split at found
  · cases found
    rfl
  · cases found

end One

/-- A solver runs out of memory, or enters its run. -/
theorem ascendShare_cases {inputs : Inputs α (Array α)} {total : Nat} (sized : inputs.Sized total)
    (settings : AscentSettings α) (i : Nat) (layers bdds : Span) (s : Solver α)
    (long : layers.length = s.layers) (few : bdds.length = s.bdds) (inside : layers.stop ≤ total) :
    let outcome := (ascendShare inputs settings i (layers, bdds)).run s
    (∃ cause, outcome.result = .error (.misuse cause)) ∨
      s.intact = true ∧ ∃ realized costs, outcome.result = .ok (realized, costs) ∧
        outcome.state.ledger = s.ledger.enter realized.iterations := by
  have share : (inputs.map layers.slice).Sized layers.length := sized.slice inside
  rcases attempt_setCosts_cases i (.run settings.iterations) (long ▸ share.costs) with
    lost | ⟨intact, bound, binding, same⟩
  · exact .inl ⟨.deferredLost,
      ((Yields.log _ s).result_bind _).trans (result_bind_of_error lost)⟩
  have diagrams : bound.diagrams = s.diagrams := congrArg Ledger.diagrams same
  have long' : layers.length = bound.layers := long.trans (congrArg Diagrams.layers diagrams.symm)
  have few' : bdds.length = bound.bdds := few.trans (congrArg Diagrams.bdds diagrams.symm)
  have roomy := room_trendRequest settings layers bdds
  rw [long'] at share
  rw [long', few'] at roomy
  have ready : bound.intact = true := (congrArg Ledger.intact same).trans intact
  rcases attempt_iterations_cases i (.run settings.iterations) ready share settings.iterations
      settings.slope roomy with
    broken | ⟨reached, realized, running, entry⟩
  · exact .inl ⟨.outOfMemory, ((Yields.log _ s).result_bind _).trans
      ((binding.result_bind _).trans (result_bind_of_error broken))⟩
  · have untouched : reached.intact = true := (congrArg Ledger.intact entry).trans ready
    have layers_eq : layers.length = reached.layers :=
      long'.trans (congrArg Diagrams.layers (congrArg Ledger.diagrams entry).symm)
    have reading : (attempt i (.run settings.iterations)
        (.costs (roomForCosts layers))).Yields reached reached _ :=
      yields_attempt i _ (Solver.yields_readCosts untouched layers_eq)
    have whole : (ascendShare inputs settings i (layers, bdds)).Yields s reached
        (realized, reached.costs.map Vector.toArray) :=
      (Yields.log _ s).bind (binding.bind (running.bind (reading.bind (.pure _ reached))))
    refine .inr ⟨intact, realized, _, whole.result, ?_⟩
    rw [whole.state, entry, same]

/-- The shares of solvers whose segments start at these indices. -/
def ascendShares (layer bdd : Nat) (members : List (Member (Solver α))) : List (Span × Span) :=
  (Span.consecutive layer (members.map (·.frozen.layers))).zip
    (Span.consecutive bdd (members.map (·.frozen.bdds)))

/-- The ledgers after a run of every solver. -/
def entered (ledgers : List (Sizes × Ledger)) (runs : List Nat) : List (Sizes × Ledger) :=
  ledgers.zipWith (fun entry run => (entry.1, entry.2.enter run)) runs

theorem walk_ascendShare {inputs : Inputs α (Array α)} {total : Nat} (sized : inputs.Sized total)
    (settings : AscentSettings α) {members : List (Member (Solver α))}
    (stable : ∀ member ∈ members, member.solver.diagrams.sizes = member.frozen)
    (position layer bdd : Nat) (inside : layer + (members.map (·.frozen.layers)).sum ≤ total) :
    let outcome := walk (quiet (ascendShare inputs settings)) position ()
      (ascendShares layer bdd members) members
    (∃ cause, outcome.result = .error (.misuse cause)) ∨
      (∀ member ∈ members, member.solver.intact = true) ∧
        ∃ results, outcome.result = .ok ((), results) ∧ results.length = members.length ∧
          ledgers ⟨outcome.state⟩ = entered (ledgers ⟨members⟩) (results.map (·.1.iterations)) := by
  induction members generalizing position layer bdd with
  | nil => exact .inr ⟨nofun, [], rfl, rfl, rfl⟩
  | cons member members ih =>
      rw [List.map_cons, List.sum_cons] at inside
      have sizes : member.solver.diagrams.sizes = member.frozen := stable member List.mem_cons_self
      have long : member.frozen.layers = member.solver.layers := (congrArg Sizes.layers sizes).symm
      have few : member.frozen.bdds = member.solver.bdds := (congrArg Sizes.bdds sizes).symm
      have here := ascendShare_cases sized settings position ⟨layer, layer + member.frozen.layers⟩
        ⟨bdd, bdd + member.frozen.bdds⟩ member.solver
        ((Nat.add_sub_cancel_left layer _).trans long) ((Nat.add_sub_cancel_left bdd _).trans few)
        (by show layer + member.frozen.layers ≤ total; omega)
      rcases here with ⟨cause, broken⟩ | ⟨intact, realized, costs, answered, entry⟩
      · exact .inl ⟨cause, result_walk_quiet_of_error broken _ members⟩
      · obtain ⟨reached, result⟩ := walk_quiet_of_ok answered
          (ascendShares (layer + member.frozen.layers) (bdd + member.frozen.bdds) members) members
        have others := ih (fun other later => stable other (List.mem_cons_of_mem _ later))
          (position + 1) (layer + member.frozen.layers) (bdd + member.frozen.bdds) (by omega)
        rcases others with ⟨cause, broken⟩ | ⟨ready, results, answers, length_eq, entries⟩
        · rw [broken] at result
          exact .inl ⟨cause, result⟩
        · rw [answers] at result
          refine .inr ⟨List.forall_mem_cons.mpr ⟨intact, ready⟩, (realized, costs) :: results,
            result, congrArg Nat.succ length_eq, ?_⟩
          apply (congrArg (fun moved => ledgers ⟨moved⟩) reached).trans
          exact congrArg₂ List.cons (congrArg (Prod.mk member.frozen) entry) entries

omit [Zero α] [Add α] [Sub α] [Mul α] [Neg α] in
theorem sized_of_denseInputs {inputs : Inputs α (Buffer α)} {values : Inputs α (Array α)}
    (accepted : denseInputs inputs = .ok values) : values.Sized values.costs.lo.size := by
  obtain ⟨costs, -, accepted⟩ := bind_eq_ok_iff.mp accepted
  obtain ⟨weights, -, accepted⟩ := bind_eq_ok_iff.mp accepted
  obtain ⟨_, aligned, accepted⟩ := bind_eq_ok_iff.mp accepted
  obtain ⟨_, weighed, accepted⟩ := bind_eq_ok_iff.mp accepted
  obtain ⟨damping, damped, same⟩ := bind_eq_ok_iff.mp accepted
  cases same
  obtain ⟨_, high, low⟩ := bind_eq_ok_iff.mp aligned
  refine ⟨⟨⟨rfl, size_of_requireSize high⟩, size_of_requireSize low⟩,
    size_of_requireSize weighed, ?_⟩
  cases given : inputs.damping with
  | shared value =>
      rw [given] at damped
      cases damped
      trivial
  | perLayer factors =>
      rw [given] at damped
      obtain ⟨elements, -, damped⟩ := bind_eq_ok_iff.mp damped
      obtain ⟨_, fits, same⟩ := bind_eq_ok_iff.mp damped
      cases same
      exact size_of_requireSize fits

omit [Scalar α] [Zero α] [Add α] [Sub α] [Mul α] [Neg α] in
theorem map_frame_entered {ledgers : List (Sizes × Ledger)} {runs : List Nat}
    (aligned : runs.length = ledgers.length) :
    (entered ledgers runs).map frame = ledgers.map frame := by
  refine List.ext_getElem (by simp [entered, aligned]) fun i _ _ => ?_
  simp [entered, frame, Ledger.enter]

/-- A dual ascent is refused, breaks off, or enters the runs on record. -/
theorem ascend_cases (inputs : Inputs α (Buffer α)) (settings : AscentSettings α)
    (b : Batch (Solver α)) :
    let outcome := (ascend inputs settings).run b
    (outcome.state = b ∧ ∃ e, outcome.result = .error e) ∨
      (∃ cause, outcome.result = .error (.misuse cause)) ∨
      ∃ ascended record, outcome.result = .ok (ascended, record) ∧ Belongs b record ∧
        ledgers outcome.state = entered (ledgers b) record.realized := by
  cases dense : denseInputs inputs with
  | error e =>
      rw [ascend, dense]
      exact .inl ⟨rfl, e, rfl⟩
  | ok values =>
      have sized := sized_of_denseInputs dense
      rcases resolve_cases b .layer values.costs.lo.size with ⟨e, refused⟩ | ⟨stable, covered⟩
      · rw [ascend, dense, run_lift_ok_bind, run_bind_of_error (congrArg Outcome.result refused),
          refused]
        exact .inl ⟨rfl, e, rfl⟩
      · right
        have layers := yields_resolve stable .layer covered
        have bdds := yields_resolve stable .bdd (b.total_eq_sum .bdd)
        have visits := walk_ascendShare sized settings stable 0 0 0 (by
          rw [covered, Nat.zero_add]
          exact Nat.le_of_eq (congrArg List.sum (List.map_map ..).symm))
        have shares : (Layout.ofSizes .layer b.sizes).spans.zip
            (Layout.ofSizes .bdd b.sizes).spans = ascendShares 0 0 b.members := by
          rw [Layout.ofSizes, Layout.ofSizes, sizes, List.map_map, List.map_map]
          rfl
        dsimp only [ascend]
        rw [dense, run_lift_ok_bind, layers.state_bind, layers.result_bind, run_read_bind,
          bdds.state_bind, bdds.result_bind, shares]
        rcases visits with ⟨cause, broken⟩ | ⟨intact, results, answered, length_eq, entries⟩
        · exact .inl ⟨cause, result_bind_of_error (result_bind_of_error broken)⟩
        · have visiting := yields_visit answered
          refine .inr ⟨_, _, visiting.result_bind _, ⟨rfl, stable, intact, ?_, ?_⟩, ?_⟩
          · rw [b.total_eq_sum, ← covered]
            exact sized
          · rw [List.length_map, length_eq]
          · exact (congrArg ledgers (visiting.state_bind _)).trans entries

/-- The ledgers after a replay of the latest run of every solver. -/
def settled (record : AscentRecord α) (ledgers : List (Sizes × Ledger)) : List (Sizes × Ledger) :=
  ledgers.map fun entry => (entry.1, entry.2.settle record.tracked record.caches)

omit [Scalar α] [Zero α] [Add α] [Sub α] [Mul α] [Neg α] in
theorem map_frame_settled (record : AscentRecord α) (ledgers : List (Sizes × Ledger)) :
    (settled record ledgers).map frame = ledgers.map frame := by
  rw [settled, List.map_map]
  rfl

/-- Gradients of the outputs that have the right format and size. -/
structure Accepts (record : AscentRecord α) (gradients : OutputGradients α) : Prop where
  branches : ∃ branches,
    incomingBranches gradients record.inputs.costs.lo.size = .ok branches
  deferred : ∃ deferred,
    incoming "grad_def_mm" gradients.deferred record.inputs.costs.lo.size = .ok deferred

omit [Scalar α] [Zero α] [Add α] [Sub α] [Mul α] [Neg α] in
theorem ledgers_of_replays {record : AscentRecord α} {before after : List (Member (Solver α))}
    (replays : List.Forall₂ (Replays record) before after) :
    ledgers ⟨after⟩ = settled record (ledgers ⟨before⟩) := by
  induction replays with
  | nil => rfl
  | cons here _ ih =>
      obtain ⟨frozen, costs, solver⟩ := here
      exact congrArg₂ List.cons (congrArg₂ Prod.mk frozen (congrArg Solver.ledger solver)) ih

/-- The backward pass of the latest dual ascent settles it.  Only gradients that are not finite
make it fail. -/
theorem ascendBackward_settles {b : Batch (Solver α)} {record : AscentRecord α}
    (belongs : Belongs b record)
    (latest : b.members.map (·.solver.pending.head?.getD 0) = record.realized)
    {gradients : OutputGradients α} (accepts : Accepts record gradients) :
    let outcome := (ascendBackward record gradients).run b
    ledgers outcome.state = settled record (ledgers b) ∧
      ((∃ gradient, outcome.result = .ok gradient) ∨
        ∃ name count length, outcome.result = .error (.nonFinite name count length)) := by
  obtain ⟨⟨branches, branches_eq⟩, deferred, deferred_eq⟩ := accepts
  rw [belongs.inputs.costs.lo] at branches_eq deferred_eq
  let outer : Costs (Array α) := ⟨branches, deferred⟩
  have branches_eq : incomingBranches gradients (b.total .layer) = .ok outer.toBranches :=
    branches_eq
  have awaits : Awaits b record :=
    ⟨belongs.sizes, belongs.stable, belongs.intact, belongs.inputs, latest⟩
  obtain ⟨last, moved, parts, -, replays, state, result⟩ :=
    run_ascendBackward awaits branches_eq deferred_eq
  refine ⟨(congrArg ledgers state).trans (ledgers_of_replays replays), ?_⟩
  have checks : (∃ gradient, checked (gathered record last parts) = .ok gradient) ∨
      ∃ name count length,
        checked (gathered record last parts) = .error (.nonFinite name count length) := by
    rw [checked]
    rcases requireFiniteArrays_cases
      [("grad_lo_costs", (gathered record last parts).costs.lo),
        ("grad_hi_costs", (gathered record last parts).costs.hi),
        ("grad_def_mm", (gathered record last parts).costs.deferred),
        ("grad_dist_weights", (gathered record last parts).weights),
        ("grad_omega", (gathered record last parts).damping.toArray)] with
      ok | ⟨name, count, length, failed⟩
    · rw [ok]
      exact .inl ⟨_, rfl⟩
    · rw [failed]
      exact .inr ⟨name, count, length, rfl⟩
  rw [result]
  exact checks

end Operation

end DualAscent
