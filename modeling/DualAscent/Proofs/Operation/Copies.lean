import DualAscent.Proofs.Operation.Chain
import DualAscent.Proofs.Operation.Elements
import DualAscent.Proofs.Operation.Spread

/-!
# One damping factor or copies of it

A dual ascent on one damping factor ends as the one on as many copies of it as there are layers.
Only where costs and weights do not cover the batch do they end differently: copies are then already
refused for their number, while one factor leaves it to the batch to refuse the costs.
-/

namespace DualAscent

open Procedure Batch

variable {α : Type}

namespace Operation

variable [Scalar α] [Zero α] [Add α] [Sub α] [Mul α] [Neg α]

omit [Scalar α] [Zero α] [Add α] [Sub α] [Mul α] [Neg α] in
theorem exists_record_iff {result result' : Except (Error α) (Ascended α × AscentRecord α)}
    (same : result' = result.map fun answer => (answer.1, answer.2.spread))
    (ascended : Ascended α) :
    (∃ record, result = .ok (ascended, record)) ↔ ∃ record, result' = .ok (ascended, record) := by
  subst same
  cases result with
  | error e => exact ⟨nofun, nofun⟩
  | ok answer =>
      constructor
      · rintro ⟨record, same⟩
        cases same
        exact ⟨record.spread, rfl⟩
      · rintro ⟨record, same⟩
        cases same
        exact ⟨answer.2, rfl⟩

section Copies

variable (b : Batch (Solver α)) (costs : Costs (Buffer α)) (weights : Buffer α) (value : α)
  (settings : AscentSettings α)

theorem run_ascend_of_error {b : Batch (Solver α)} {inputs : Inputs α (Buffer α)} {e : Error α}
    (refused : denseInputs inputs = .error e) :
    (ascend inputs settings).run b = ⟨[], b, .error e⟩ := by
  rw [ascend, refused, run_lift_error_bind]

/-- The inputs on record are those that passed the checks. -/
theorem denseInputs_of_ascend {b : Batch (Solver α)} {inputs : Inputs α (Buffer α)}
    {settings : AscentSettings α} {ascended : Ascended α} {record : AscentRecord α}
    (ok : ((ascend inputs settings).run b).result = .ok (ascended, record)) :
    denseInputs inputs = .ok record.inputs := by
  obtain ⟨values, dense, ok⟩ := result_lift_bind_eq_ok_iff.mp ok
  obtain ⟨_, -, ok⟩ := result_bind_eq_ok_iff.mp ok
  obtain ⟨_, -, ok⟩ := result_bind_eq_ok_iff.mp ok
  obtain ⟨_, -, ok⟩ := result_bind_eq_ok_iff.mp ok
  obtain ⟨_, -, ok⟩ := result_bind_eq_ok_iff.mp ok
  obtain ⟨_, -, same⟩ := result_bind_eq_ok_iff.mp ok
  cases same
  exact dense

theorem Belongs.of_ascend {b : Batch (Solver α)} {inputs : Inputs α (Buffer α)}
    {settings : AscentSettings α} {ascended : Ascended α} {record : AscentRecord α}
    (ok : ((ascend inputs settings).run b).result = .ok (ascended, record)) : Belongs b record := by
  rcases ascend_cases inputs settings b with
    ⟨-, e, failed⟩ | ⟨cause, failed⟩ | ⟨_, _, same, belongs, -⟩
  · cases failed.symm.trans ok
  · cases failed.symm.trans ok
  · cases same.symm.trans ok
    exact belongs

/-- Inputs that do not cover the batch are refused for one reason or for the other. -/
theorem ascend_copies_of_uncovered {values : Inputs α (Array α)}
    (dense : denseInputs ⟨costs, weights, .shared value⟩ = .ok values)
    (uncovered : values.costs.lo.size ≠ b.total .layer) :
    (ascend ⟨costs, weights, .shared value⟩ settings).run b = ⟨[], b, b.ensureStable >>= fun _ =>
        .error (.layoutMismatch .layer (b.total .layer) values.costs.lo.size)⟩ ∧
      (ascend ⟨costs, weights, .perLayer (.ofArray (Array.replicate (b.total .layer) value))⟩
        settings).run b =
          ⟨[], b, .error (.shape "omega" values.costs.lo.size (b.total .layer))⟩ := by
  constructor
  · rw [ascend, dense, run_lift_ok_bind, run_bind, run_resolve_of_uncovered uncovered]
    cases b.ensureStable with
    | error e => rfl
    | ok _ => rfl
  · refine run_ascend_of_error settings ?_
    rw [denseInputs_spread, dense]
    exact if_neg uncovered.symm

/-- Costs and weights do not cover the batch, or both ascents end alike but for their records. -/
theorem ascend_copies_cases :
    let shared : Inputs α (Buffer α) := ⟨costs, weights, .shared value⟩
    let copies : Inputs α (Buffer α) :=
      ⟨costs, weights, .perLayer (.ofArray (Array.replicate (b.total .layer) value))⟩
    let one := (ascend shared settings).run b
    let each := (ascend copies settings).run b
    (∃ values, denseInputs shared = .ok values ∧ values.costs.lo.size ≠ b.total .layer) ∨
      each.state = one.state ∧
        each.result = one.result.map fun answer => (answer.1, answer.2.spread) := by
  intro shared copies one each
  cases dense : denseInputs shared with
  | error e =>
      have refused : denseInputs copies = .error e := by
        rw [denseInputs_spread, dense]
        rfl
      have failed : one = ⟨[], b, .error e⟩ := run_ascend_of_error settings dense
      have failed' : each = ⟨[], b, .error e⟩ := run_ascend_of_error settings refused
      rw [failed, failed']
      exact .inr ⟨rfl, rfl⟩
  | ok values =>
      by_cases covers : values.costs.lo.size = b.total .layer
      · have spread : denseInputs copies = .ok (values.spread (b.total .layer)) := by
          rw [denseInputs_spread, dense]
          exact if_pos covers.symm
        exact .inr (ascend_spread dense spread covers)
      · exact .inl ⟨values, rfl, covers⟩

end Copies

/-- The record of a shared factor, and that of its copies. -/
theorem records_of_copies {b : Batch (Solver α)} {costs : Costs (Buffer α)} {weights : Buffer α}
    {value : α} {settings : AscentSettings α} {ascended ascended' : Ascended α}
    {record record' : AscentRecord α}
    (ok : ((ascend ⟨costs, weights, .shared value⟩ settings).run b).result =
      .ok (ascended, record))
    (ok' : ((ascend ⟨costs, weights, .perLayer (.ofArray (Array.replicate (b.total .layer) value))⟩
      settings).run b).result = .ok (ascended', record')) :
    record.inputs.damping = .shared value ∧ record' = record.spread ∧ Belongs b record ∧
      Belongs b record.spread := by
  have belongs' := Belongs.of_ascend ok'
  have spread : record' = record.spread := by
    rcases ascend_copies_cases b costs weights value settings with
      ⟨values, dense, uncovered⟩ | ⟨-, result⟩
    · have refused := (ascend_copies_of_uncovered b costs weights value settings dense uncovered).2
      cases (congrArg Outcome.result refused).symm.trans ok'
    · rw [ok', ok] at result
      exact congrArg Prod.snd (Except.ok.inj result)
  have factor : record.inputs.damping = .shared value := by
    rw [elements_of_denseInputs (denseInputs_of_ascend ok)]
    rfl
  exact ⟨factor, spread, Belongs.of_ascend ok, spread ▸ belongs'⟩

/-- Costs and weights that pass their checks are as many as there are layers. -/
def Covered (b : Batch (Solver α)) (inputs : Inputs α (Buffer α)) : Prop :=
  ∀ values, denseInputs inputs = .ok values → values.costs.lo.size = b.total .layer

/-- A dual ascent with one damping factor for all layers does the same as with as many copies of it
as there are layers.  The only exception are costs and weights in the wrong number, which the copies
do not match.  Gradients of costs and weights are the same in both cases.  In exact arithmetic the
gradient of the one factor is the sum of those of the copies. -/
theorem ascend_sharedFactor_eq_copies :
    (∀ {α : Type} [Scalar α] [Zero α] [Add α] [Sub α] [Mul α] [Neg α] (b : Batch (Solver α))
      (costs : Costs (Buffer α)) (weights : Buffer α) (value : α) (settings : AscentSettings α),
      let n := b.total .layer
      let shared : Inputs α (Buffer α) := ⟨costs, weights, .shared value⟩
      let copies : Inputs α (Buffer α) :=
        ⟨costs, weights, .perLayer (.ofArray (Array.replicate n value))⟩
      let one := (ascend shared settings).run b
      let each := (ascend copies settings).run b
      one.state = each.state ∧
      (∀ ascended, (∃ record, one.result = .ok (ascended, record)) ↔
        ∃ record, each.result = .ok (ascended, record)) ∧
      (Covered b shared → ∀ e, one.result = .error e ↔ each.result = .error e) ∧
      (∀ values, denseInputs shared = .ok values → values.costs.lo.size ≠ n →
        one.state = b ∧
        one.result = (b.ensureStable >>= fun _ =>
          .error (.layoutMismatch .layer n values.costs.lo.size)) ∧
        each.result = .error (.shape "omega" values.costs.lo.size n)) ∧
      ∀ ascended record ascended' record', one.result = .ok (ascended, record) →
        each.result = .ok (ascended', record') →
        ∀ (b₁ b₂ : Batch (Solver α)) gradients gradient gradient', b₁.diagrams = b₂.diagrams →
          ((ascendBackward record gradients).run b₁).result = .ok gradient →
          ((ascendBackward record' gradients).run b₂).result = .ok gradient' →
          gradient.costs = gradient'.costs ∧ gradient.weights = gradient'.weights) ∧
    (∀ {R : Type} [CommRing R] [Scalar R] (b : Batch (Solver R)) (costs : Costs (Buffer R))
      (weights : Buffer R) (value : R) (settings : AscentSettings R),
      let n := b.total .layer
      let shared : Inputs R (Buffer R) := ⟨costs, weights, .shared value⟩
      let copies : Inputs R (Buffer R) :=
        ⟨costs, weights, .perLayer (.ofArray (Array.replicate n value))⟩
      ∀ ascended record ascended' record',
        ((ascend shared settings).run b).result = .ok (ascended, record) →
        ((ascend copies settings).run b).result = .ok (ascended', record') →
        ∀ (b₁ b₂ : Batch (Solver R)) gradients gradient gradient', b₁.diagrams = b₂.diagrams →
          ((ascendBackward record gradients).run b₁).result = .ok gradient →
          ((ascendBackward record' gradients).run b₂).result = .ok gradient' →
          ∃ entries, gradient'.damping = .perLayer entries ∧ entries.size = n ∧
            gradient.damping = .shared entries.sum) := by
  constructor
  · intro α _ _ _ _ _ _ b costs weights value settings n shared copies one each
    refine ⟨?_, ?_, ?_, ?_, ?_⟩
    · rcases ascend_copies_cases b costs weights value settings with
        ⟨values, dense, uncovered⟩ | ⟨state, -⟩
      · obtain ⟨refused, refused'⟩ :=
          ascend_copies_of_uncovered b costs weights value settings dense uncovered
        exact (congrArg Outcome.state refused).trans (congrArg Outcome.state refused').symm
      · exact state.symm
    · intro ascended
      rcases ascend_copies_cases b costs weights value settings with
        ⟨values, dense, uncovered⟩ | ⟨-, result⟩
      · obtain ⟨refused, refused'⟩ :=
          ascend_copies_of_uncovered b costs weights value settings dense uncovered
        constructor
        · rintro ⟨record, ok⟩
          obtain ⟨_, -, failed⟩ :=
            bind_eq_ok_iff.mp ((congrArg Outcome.result refused).symm.trans ok)
          cases failed
        · rintro ⟨record, ok⟩
          cases (congrArg Outcome.result refused').symm.trans ok
      · exact exists_record_iff result ascended
    · intro covered e
      rcases ascend_copies_cases b costs weights value settings with
        ⟨values, dense, uncovered⟩ | ⟨-, result⟩
      · exact absurd (covered values dense) uncovered
      · exact result ▸ map_eq_error_iff.symm
    · intro values dense uncovered
      obtain ⟨refused, refused'⟩ :=
        ascend_copies_of_uncovered b costs weights value settings dense uncovered
      exact ⟨congrArg Outcome.state refused, congrArg Outcome.result refused,
        congrArg Outcome.result refused'⟩
    · intro ascended record ascended' record' ok ok' b₁ b₂ gradients gradient gradient' alike swept
        swept'
      obtain ⟨-, rfl, belongs, belongs'⟩ := records_of_copies ok ok'
      exact costs_weights_spread alike (belongs.awaits_of_ok swept) (belongs'.awaits_of_ok swept')
        swept swept'
  · intro R _ _ b costs weights value settings n shared copies ascended record ascended' record' ok
      ok' b₁ b₂ gradients gradient gradient' alike swept swept'
    obtain ⟨factor, rfl, belongs, belongs'⟩ := records_of_copies ok ok'
    have awaits := belongs.awaits_of_ok swept
    have length_eq : b₁.total .layer = n :=
      awaits.inputs.costs.lo.symm.trans belongs.inputs.costs.lo
    rw [← length_eq]
    exact damping_spread alike awaits (belongs'.awaits_of_ok swept') swept swept' factor

/-- One solver with two layers. -/
def narrow : Batch (Solver ℚ) := ofSolvers [Solver.ofDiagrams ⟨1, [[.last 0]]⟩ none none]

/-- Costs and weights for three layers. -/
def overlong (damping : Damping ℚ (Buffer ℚ)) : Inputs ℚ (Buffer ℚ) :=
  let zeros : Buffer ℚ := .ofArray #[0, 0, 0]
  ⟨⟨⟨zeros, zeros⟩, zeros⟩, zeros, damping⟩

theorem linked_sharedFactor_eq_copies :
    let settings : AscentSettings ℚ := ⟨3, 2, 0, 1, 2, 1 / 2⟩
    let copies : Inputs ℚ (Buffer ℚ) :=
      { linkedInputs with damping := .perLayer (.ofArray (Array.replicate 9 (3 / 10))) }
    linked.total .layer = 9 ∧ Covered linked linkedInputs ∧
      (∀ e, ((ascend linkedInputs settings).run linked).result = .error e ↔
        ((ascend copies settings).run linked).result = .error e) ∧
      ((ascend (overlong (.shared (1 / 2))) settings).run narrow).result =
        (narrow.ensureStable >>= fun _ => .error (.layoutMismatch .layer 2 3)) ∧
      ∃ (ascended : Ascended ℚ) (record record' : AscentRecord ℚ)
        (gradient gradient' : Inputs ℚ (Array ℚ)) (entries : Array ℚ),
        ((ascend linkedInputs settings).run linked).result = .ok (ascended, record) ∧
        ((ascend copies settings).run linked).result = .ok (ascended, record') ∧
        ((roundTrip linkedInputs settings linkedGradients).run linked).result = .ok gradient ∧
        ((roundTrip copies settings linkedGradients).run linked).result = .ok gradient' ∧
        gradient.costs = gradient'.costs ∧ gradient.weights = gradient'.weights ∧
        gradient'.damping = .perLayer entries ∧ entries.size = 9 ∧
        gradient.damping = .shared entries.sum := by
  intro settings copies
  have one : ((roundTrip linkedInputs settings linkedGradients).run
      linked).result.toOption.isSome = true := by decide +kernel
  have each : ((roundTrip copies settings linkedGradients).run
      linked).result.toOption.isSome = true := by decide +kernel
  obtain ⟨gradient, one⟩ := Option.isSome_iff_exists.mp one
  obtain ⟨gradient', each⟩ := Option.isSome_iff_exists.mp each
  rw [toOption_eq_some_iff] at one each
  obtain ⟨⟨ascended, record⟩, climbed, swept⟩ := result_bind_eq_ok_iff.mp one
  obtain ⟨⟨ascended', record'⟩, climbed', swept'⟩ := result_bind_eq_ok_iff.mp each
  obtain ⟨state, answers, errors, -, gradients⟩ := ascend_sharedFactor_eq_copies.1 linked
    linkedInputs.costs linkedInputs.weights (3 / 10) settings
  have covered : Covered linked linkedInputs := by
    intro values dense
    have size : (denseInputs linkedInputs).toOption.map (·.costs.lo.size) = some 9 := by
      decide +kernel
    rw [dense] at size
    exact Option.some.inj size
  obtain ⟨-, -, -, uncovered, -⟩ := ascend_sharedFactor_eq_copies.1 narrow
    (overlong (.shared (1 / 2))).costs (overlong (.shared (1 / 2))).weights (1 / 2) settings
  obtain ⟨-, refused, -⟩ := uncovered ⟨⟨⟨#[0, 0, 0], #[0, 0, 0]⟩, #[0, 0, 0]⟩, #[0, 0, 0],
    .shared (1 / 2)⟩ rfl (by decide)
  obtain ⟨again, climbed''⟩ := (answers ascended).mp ⟨record, climbed⟩
  cases climbed''.symm.trans climbed'
  have alike := congrArg Batch.diagrams state
  obtain ⟨costs, weights⟩ := gradients ascended record ascended record' climbed climbed' _ _
    linkedGradients gradient gradient' alike swept swept'
  obtain ⟨entries, kind, size, total⟩ := ascend_sharedFactor_eq_copies.2 linked
    linkedInputs.costs linkedInputs.weights (3 / 10) settings ascended record ascended record'
    climbed climbed' _ _ linkedGradients gradient gradient' alike swept swept'
  exact ⟨rfl, covered, errors covered, refused, ascended, record, record', gradient, gradient',
    entries, climbed, climbed', one, each, costs, weights, kind, size, total⟩

/-- Copies do not match costs in the wrong number, which one factor leaves to the batch. -/
theorem overlong_sharedFactor_ne_copies :
    let settings : AscentSettings ℚ := ⟨3, 2, 0, 1, 2, 1 / 2⟩
    narrow.total .layer = 2 ∧
      ((ascend (overlong (.shared (1 / 2))) settings).run narrow).result =
        .error (.layoutMismatch .layer 2 3) ∧
      ((ascend (overlong (.perLayer (.ofArray (Array.replicate 2 (1 / 2))))) settings).run
        narrow).result = .error (.shape "omega" 3 2) :=
  ⟨rfl, rfl, rfl⟩

end Operation

end DualAscent
