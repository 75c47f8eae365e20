import DualAscent.Proofs.Exact
import DualAscent.Proofs.Operation.Course
import DualAscent.Proofs.Session.Order

/-!
# What failures leave behind

A call on a batch has one solver after the other do its part of the work.  Refused inputs leave all
solvers as they were.  A failing engine leaves the solvers behind it as they were, and those before
it as any traversal would that gets to its end.  An answer that is refused for its entries leaves
what the traversal has made of all solvers.
-/

namespace DualAscent

open Procedure Batch

variable {α : Type} [Scalar α] [Zero α] [Add α] [Sub α] [Mul α] [Neg α]

/-- What the backward pass of a record has the solver at a position do. -/
def Record.part (gradients : DenseGradients α) :
    Record α → Nat → Procedure (Event α) (Solver α) (Error α) Unit
  | .ascent record =>
    let layers := (Layout.ofSizes .layer record.sizes).spans
    let windows := record.realized.map (ReplayWindow.ofRun · record.tracked)
    assigned (layers.zip windows) fun i share => Operation.descendOne record
      (gradients.costs record.inputs.costs.lo.size) i share.1 share.2 0
  | .redistribution record =>
    assigned (Layout.ofSizes .layer record.sizes).spans (Operation.redistributeOneBackward
      record.inputs (gradients.branches record.inputs.lo.size))
  | .minMarginals record =>
    assigned (Layout.ofSizes .layer record.sizes).spans (Operation.minMarginalsOneBackward
      record.inputs (DenseGradients.orZeros gradients.values record.inputs.lo.size))
  | .perturbation record =>
    let layers := (Layout.ofSizes .layer record.sizes).spans
    let slots := (Layout.ofSizes .slot record.sizes).spans
    assigned (layers.zip slots) fun i share => Operation.perturbOneBackward record.inputs
      (gradients.branches record.inputs.costs.lo.size) i share.1 share.2
  | .bounds record =>
    let layers := (Layout.ofSizes .layer record.sizes).spans
    let bdds := Layout.ofSizes .bdd record.sizes
    assigned (layers.zip bdds.spans) fun i share => Operation.lowerBoundsOneBackward record.inputs
      (DenseGradients.orZeros gradients.values bdds.total) i share.1 share.2

/-- What a command has the solver at a position do, in a batch of these sizes and with these records
unused. -/
def Command.part (sizes : List Sizes) (record? : Nat → Option (Record α)) {β : Type} :
    Command α β → Nat → Procedure (Event α) (Solver α) (Error α) Unit
  | .ascend inputs settings =>
    let shares := (Layout.ofSizes .layer sizes).spans.zip (Layout.ofSizes .bdd sizes).spans
    assigned shares fun i share =>
      Operation.ascendOne (inputs.map Buffer.elements) settings i share.1 share.2
  | .redistribute costs =>
    assigned (Layout.ofSizes .layer sizes).spans
      (Operation.redistributeOne (costs.map Buffer.elements))
  | .minMarginals branches =>
    assigned (Layout.ofSizes .layer sizes).spans
      (Operation.minMarginalsOne (branches.map Buffer.elements))
  | .perturb inputs =>
    let shares := (Layout.ofSizes .layer sizes).spans.zip (Layout.ofSizes .slot sizes).spans
    assigned shares fun i share => Operation.perturbOne inputs.elements i share.1 share.2
  | .lowerBounds branches =>
    let shares := (Layout.ofSizes .layer sizes).spans.zip (Layout.ofSizes .bdd sizes).spans
    assigned shares fun i share =>
      Operation.lowerBoundsOne (branches.map Buffer.elements) i share.1 share.2
  | .backward of gradients =>
    match record? of with
    | some record => record.part gradients.elements
    | none => fun _ => pure ()
  | .round costs settings =>
    assigned (Layout.ofSizes .layer sizes).spans
      (Operation.roundOne (costs.map Buffer.elements) settings)
  | .solution branches =>
    assigned (Layout.ofSizes .layer sizes).spans
      (Operation.solutionOne (branches.map Buffer.elements))

theorem Record.blames_part (gradients : DenseGradients α) (record : Record α) (i : Nat) :
    Blames i (record.part gradients i) := by
  cases record with
  | ascent record =>
      dsimp only [part]
      refine .assigned (fun i share => ?_) _ i
      exact Operation.blames_descendOne i record _ share.1 share.2 0
  | redistribution record =>
      dsimp only [part]
      exact .assigned (fun i => Operation.blames_redistributeOneBackward i _ _) _ i
  | minMarginals record =>
      dsimp only [part]
      exact .assigned (fun i => Operation.blames_minMarginalsOneBackward i _ _) _ i
  | perturbation record =>
      dsimp only [part]
      refine .assigned (fun i share => ?_) _ i
      exact Operation.blames_perturbOneBackward i _ _ share.1 share.2
  | bounds record =>
      dsimp only [part]
      refine .assigned (fun i share => ?_) _ i
      exact Operation.blames_lowerBoundsOneBackward i _ _ share.1 share.2

/-- A part fails for its own solver's engine. -/
theorem Command.blames_part (sizes : List Sizes) (record? : Nat → Option (Record α)) {β : Type}
    (command : Command α β) (i : Nat) : Blames i (command.part sizes record? i) := by
  cases command with
  | ascend inputs settings =>
      dsimp only [part]
      refine .assigned (fun i share => ?_) _ i
      exact Operation.blames_ascendOne i _ settings share.1 share.2
  | redistribute costs =>
      dsimp only [part]
      exact .assigned (fun i => Operation.blames_redistributeOne i _) _ i
  | minMarginals branches =>
      dsimp only [part]
      exact .assigned (fun i => Operation.blames_minMarginalsOne i _) _ i
  | perturb inputs =>
      dsimp only [part]
      refine .assigned (fun i share => ?_) _ i
      exact Operation.blames_perturbOne i _ share.1 share.2
  | lowerBounds branches =>
      dsimp only [part]
      refine .assigned (fun i share => ?_) _ i
      exact Operation.blames_lowerBoundsOne i _ share.1 share.2
  | backward of gradients =>
      rw [part]
      cases record? of with
      | some record => exact record.blames_part _ i
      | none => exact .pure i ()
  | round costs settings =>
      dsimp only [part]
      exact .assigned (fun i => Operation.blames_roundOne i _ _) _ i
  | solution branches =>
      dsimp only [part]
      exact .assigned (fun i => Operation.blames_solutionOne i _) _ i

namespace Session

variable {β : Type}

theorem leaves_descend (b : Batch (Solver α)) (record : Record α) (gradients : OutputGradients α) :
    Leaves (record.part gradients.elements) b ((descend record gradients).run b).fate := by
  cases record with
  | ascent record =>
      rw [descend, fate_map]
      exact Operation.leaves_ascendBackward b record gradients
  | redistribution record =>
      rw [descend, fate_map]
      exact Operation.leaves_redistributeBackward b gradients record
  | minMarginals record =>
      rw [descend, fate_map]
      exact Operation.leaves_minMarginalsBackward b gradients record
  | perturbation record =>
      rw [descend, fate_map]
      exact Operation.leaves_perturbBackward b gradients record
  | bounds record =>
      rw [descend, fate_map]
      exact Operation.leaves_lowerBoundsBackward b gradients record

/-- The batch is left as after these parts, and failures are those of the operation. -/
def Ends (part : Nat → Procedure (Event α) (Solver α) (Error α) Unit) (s : Session α (Solver α))
    (outcome : Outcome (Event α) (Session α (Solver α)) (CommandError α) β) : Prop :=
  ∃ left, Leaves part s.batch left ∧ outcome.state.batch = left.1 ∧
    outcome.result.map (fun _ => ()) = left.2.mapError .operation

variable {part : Nat → Procedure (Event α) (Solver α) (Error α) Unit} {s : Session α (Solver α)}

omit [Scalar α] [Zero α] [Add α] [Sub α] [Mul α] [Neg α] in
theorem forget_onBatch (work : Batch.Work α (Solver α) β) (s : Session α (Solver α)) :
    ((onBatch work).run s).result.map (fun _ => ()) =
      (work.run s.batch).fate.2.mapError .operation := by
  show ((work.run s.batch).result.mapError _).map _ = ((work.run s.batch).result.map _).mapError _
  cases (work.run s.batch).result with
  | error e => rfl
  | ok value => rfl

omit [Scalar α] [Zero α] [Add α] [Sub α] [Mul α] [Neg α] in
theorem forget_recording {ρ : Type} (label : Nat) (wrap : ρ → Record α)
    (forward : Batch.Work α (Solver α) (β × ρ)) (s : Session α (Solver α)) :
    ((recording label wrap forward).run s).state.batch = (forward.run s.batch).state ∧
      ((recording label wrap forward).run s).result.map (fun _ => ()) =
        (forward.run s.batch).fate.2.mapError .operation := by
  cases result : (forward.run s.batch).result with
  | error e =>
      obtain ⟨state, failed⟩ := recording_of_error label wrap result
      rw [state, failed, Outcome.fate, result]
      exact ⟨rfl, rfl⟩
  | ok pair =>
      obtain ⟨value, record⟩ := pair
      have recorded := recording_of_ok label wrap result
      rw [recorded.state, recorded.result, Outcome.fate, result]
      exact ⟨rfl, rfl⟩

omit [Scalar α] [Zero α] [Add α] [Sub α] [Mul α] [Neg α] in
theorem ends_onBatch {work : Batch.Work α (Solver α) β}
    (leaves : Leaves part s.batch (work.run s.batch).fate) :
    Ends part s ((onBatch work).run s) :=
  ⟨_, leaves, rfl, forget_onBatch work s⟩

omit [Scalar α] [Zero α] [Add α] [Sub α] [Mul α] [Neg α] in
theorem ends_recording {ρ : Type} {forward : Batch.Work α (Solver α) (β × ρ)} (label : Nat)
    (wrap : ρ → Record α) (leaves : Leaves part s.batch (forward.run s.batch).fate) :
    Ends part s ((recording label wrap forward).run s) :=
  ⟨_, leaves, forget_recording label wrap forward s⟩

/-- A command finds no record, or the batch is left as after its parts. -/
theorem execute_cases (s : Session α (Solver α)) (label : Nat) (command : Command α β) :
    let outcome := (execute label command).run s
    outcome.result = .error .noRecord ∨
      Ends (command.part s.batch.sizes s.record?) s outcome := by
  cases command with
  | ascend inputs settings =>
      exact .inr (ends_recording label _ (Operation.leaves_ascend s.batch inputs settings))
  | redistribute costs =>
      exact .inr (ends_recording label _ (Operation.leaves_redistribute s.batch costs))
  | minMarginals branches =>
      exact .inr (ends_recording label _ (Operation.leaves_minMarginals s.batch branches))
  | perturb inputs =>
      exact .inr (ends_recording label _ (Operation.leaves_perturb s.batch inputs))
  | lowerBounds branches =>
      exact .inr (ends_recording label _ (Operation.leaves_lowerBounds s.batch branches))
  | backward of gradients =>
      cases found : s.record? of with
      | none =>
          left
          rw [execute, run_read_bind, found]
          rfl
      | some record =>
          have leaves := leaves_descend s.batch record gradients
          right
          rw [run_backward_of_some label found, Command.part, found]
          exact ends_onBatch leaves
  | round costs settings =>
      exact .inr (ends_onBatch (Operation.leaves_round s.batch costs settings))
  | solution branches =>
      exact .inr (ends_onBatch (Operation.leaves_solution s.batch branches))

namespace Ends

variable {outcome : Outcome (Event α) (Session α (Solver α)) (CommandError α) β}

omit [Scalar α] [Zero α] [Add α] [Sub α] [Mul α] [Neg α] in
theorem leaves_of_error (ends : Ends part s outcome) {e : Error α}
    (failed : outcome.result = .error (.operation e)) :
    Leaves part s.batch (outcome.state.batch, .error e) := by
  obtain ⟨⟨b, result⟩, leaves, rfl, same⟩ := ends
  rw [failed] at same
  cases result with
  | error e' =>
      cases same
      exact leaves
  | ok _ => cases same

omit [Scalar α] [Zero α] [Add α] [Sub α] [Mul α] [Neg α] in
theorem leaves_of_ok (ends : Ends part s outcome) {value : β} (ok : outcome.result = .ok value) :
    Leaves part s.batch (outcome.state.batch, .ok ()) := by
  obtain ⟨⟨b, result⟩, leaves, rfl, same⟩ := ends
  rw [ok] at same
  cases result with
  | error e => cases same
  | ok _ => exact leaves

omit [Scalar α] [Zero α] [Add α] [Sub α] [Mul α] [Neg α] in
theorem result_of_first (ends : Ends part s outcome) {i : Nat} {member : Member (Solver α)}
    {e : Error α} (found : s.batch.members[i]? = some member)
    (before : Passes part i s.batch.members)
    (failed : ((part i).run member.solver).result = .error e) :
    outcome.result = .error (.operation e) ∨
      ∃ e', e'.Refuses ∧ outcome.result = .error (.operation e') := by
  obtain ⟨⟨b, result⟩, leaves, -, same⟩ := ends
  rcases leaves.result_of_first found before failed with rfl | ⟨e', refuses, rfl⟩
  · exact .inl (map_eq_error_iff.mp same)
  · exact .inr ⟨e', refuses, map_eq_error_iff.mp same⟩

end Ends

/-- The command gets through the batch, whether or not its answer is accepted. -/
def Completes (result : Except (CommandError α) β) : Prop :=
  (∃ value, result = .ok value) ∨
    ∃ gradient count length, result = .error (.operation (.nonFinite gradient count length))

theorem completed_of_completes (label : Nat) (command : Command α β)
    (completes : Completes ((execute label command).run s).result) :
    Passes (command.part s.batch.sizes s.record?) s.batch.members.length s.batch.members ∧
      ((execute label command).run s).state.batch =
        completed (command.part s.batch.sizes s.record?) s.batch := by
  rcases execute_cases s label command with absent | ends
  · rcases completes with ⟨value, ok⟩ | ⟨gradient, count, length, failed⟩
    · cases absent.symm.trans ok
    · cases absent.symm.trans failed
  · rcases completes with ⟨value, ok⟩ | ⟨gradient, count, length, failed⟩
    · exact (ends.leaves_of_ok ok).of_ok
    · exact (ends.leaves_of_error failed).of_nonFinite (command.blames_part _ _)

/-- Refused inputs leave every solver as it was.  A failing engine is that of the first solver whose
part fails; it leaves all solvers behind as they were, and all solvers before as after their parts,
which is how any completed traversal leaves them.  Unless inputs are refused, the first part that
fails does so for the whole command.  An answer that is refused because it is not finite leaves all
solvers as after their parts, and so does one that is accepted. -/
theorem execute_leaves (s : Session α (Solver α)) (label : Nat) (command : Command α β) :
    let part := command.part s.batch.sizes s.record?
    let outcome := (execute label command).run s
    (∀ e, outcome.result = .error (.operation e) → e.Refuses → outcome.state.batch = s.batch) ∧
    (∀ i routine context source,
      outcome.result = .error (.operation (.engine i routine context source)) →
      (∃ member, s.batch.members[i]? = some member ∧
        ((part i).run member.solver).result = .error (.engine i routine context source)) ∧
      (∃ (answer : Type) (request : Request α answer) (t : Solver α), request.routine = routine ∧
        ((Engine.perform request).run t).result = .error source) ∧
      Passes part i s.batch.members ∧
      (∀ j, i < j → outcome.state.batch.members[j]? = s.batch.members[j]?) ∧
      (∀ j < i, outcome.state.batch.members[j]? = (completed part s.batch).members[j]?) ∧
      ∀ (s' : Session α (Solver α)) (label' : Nat), s'.records = s.records →
        s'.batch.sizes = s.batch.sizes → Completes ((execute label' command).run s').result →
        ∀ j < i, s'.batch.members[j]? = s.batch.members[j]? →
          ((execute label' command).run s').state.batch.members[j]? =
            outcome.state.batch.members[j]?) ∧
    (∀ i member e, s.batch.members[i]? = some member → Passes part i s.batch.members →
      ((part i).run member.solver).result = .error e →
      outcome.result = .error (.operation e) ∨ outcome.result = .error .noRecord ∨
        ∃ e', e'.Refuses ∧ outcome.result = .error (.operation e')) ∧
    (Completes outcome.result → Passes part s.batch.members.length s.batch.members ∧
      outcome.state.batch = completed part s.batch) := by
  intro part outcome
  have blames := command.blames_part s.batch.sizes s.record?
  refine ⟨fun e failed refuses => ?_, fun i routine context source failed => ?_,
    fun i member e found before failed => ?_, completed_of_completes label command⟩
  · rcases execute_cases s label command with absent | ends
    · cases absent.symm.trans failed
    · exact (ends.leaves_of_error failed).of_refuses blames refuses
  · rcases execute_cases s label command with absent | ends
    · cases absent.symm.trans failed
    obtain ⟨member, found, before, native, left⟩ :=
      (ends.leaves_of_error failed).of_engine blames
    refine ⟨⟨member, found, native⟩, ?_, before, fun j behind => ?_, fun j ahead => ?_, ?_⟩
    · rcases blames i member.solver _ native with
        ⟨_, misuse⟩ | ⟨_, _, _, answer, request, t, engine, named, refused⟩
      · cases misuse
      · cases engine
        exact ⟨answer, request, t, named, refused⟩
    · rw [left, getElem?_reached_of_le behind]
    · rw [left, getElem?_reached_of_lt (Nat.lt_succ_of_lt ahead)]
    · intro s' label' records sizes completes j ahead same
      obtain ⟨-, carried⟩ := completed_of_completes label' command completes
      have parts : command.part s'.batch.sizes s'.record? = part := by
        have unused : s'.record? = s.record? := funext fun handle => by
          rw [Session.record?, Session.record?, records]
        rw [sizes, unused]
      rw [carried, parts, left, getElem?_reached_of_lt (Nat.lt_succ_of_lt ahead)]
      exact getElem?_completed_congr same
  · rcases execute_cases s label command with absent | ends
    · exact .inr (.inl absent)
    · exact (ends.result_of_first found before failed).imp_right .inr

/-- Three solvers, of which the middle one fails to redistribute. -/
def faltering : Session ℚ (Solver ℚ) :=
  ⟨ofSolvers [Solver.ofDiagrams ⟨1, [[.last 0]]⟩ none none,
    Solver.ofDiagrams ⟨1, [[.last 0]]⟩ none (some .distributeDelta),
    Solver.ofDiagrams ⟨1, [[.last 0]]⟩ none none], []⟩

/-- Solvers of the same sizes, none of which fails. -/
def steady : Session ℚ (Solver ℚ) :=
  ⟨ofSolvers (List.replicate 3 (Solver.ofDiagrams ⟨1, [[.last 0]]⟩ none none)), []⟩

/-- Costs for their layers, with something to redistribute in each. -/
def deferring : Costs (Buffer ℚ) :=
  Costs.map .ofArray ⟨⟨#[1, 0, 1, 0, 1, 0], #[0, 0, 0, 0, 0, 0]⟩, #[1, 0, 2, 0, 3, 0]⟩

theorem faltering_leaves :
    let command : Command ℚ _ := .redistribute deferring
    let outcome := (execute 0 command).run faltering
    let whole := (execute 0 command).run steady
    let refused := (execute 0 (.redistribute { deferring with lo := .ofArray #[] })).run faltering
    (∃ context source, outcome.result =
      .error (.operation (.engine 1 .distributeDelta context source))) ∧
    (∃ value, whole.result = .ok value) ∧
    whole.state.batch = completed (command.part steady.batch.sizes steady.record?) steady.batch ∧
    outcome.state.batch.members[0]? = whole.state.batch.members[0]? ∧
    outcome.state.batch.members[2]? = faltering.batch.members[2]? ∧
    outcome.state.batch.members.map (fun member =>
      (member.solver.costs.hi.toArray, member.solver.costs.deferred.toArray)) =
        [(#[1, 0], #[0, 0]), (#[0, 0], #[2, 0]), (#[0, 0], #[0, 0])] ∧
    (∃ e, refused.result = .error (.operation e)) ∧ refused.state.batch = faltering.batch := by
  intro command outcome whole refused
  have fails : outcome.result = .error (.operation (.engine 1 .distributeDelta
      (.segments [(.layer, ⟨2, 4⟩)]) (.injected .distributeDelta))) := rfl
  have completes : ∃ value, whole.result = .ok value := ⟨_, rfl⟩
  obtain ⟨-, -, -, behind, -, before⟩ :=
    (execute_leaves faltering 0 command).2.1 _ _ _ _ fails
  have carried := ((execute_leaves steady 0 command).2.2.2 (.inl completes)).2
  have mismatch : ∃ e : Error ℚ, refused.result = .error (.operation e) ∧ e.Refuses :=
    ⟨_, rfl, trivial⟩
  obtain ⟨e, unfit, refuses⟩ := mismatch
  have stays := (execute_leaves faltering 0
    (.redistribute { deferring with lo := .ofArray #[] })).1 e unfit refuses
  exact ⟨⟨_, _, fails⟩, completes, carried,
    (before steady 0 rfl rfl (.inl completes) 0 (by decide) rfl).symm, behind 2 (by decide),
    by decide +kernel, ⟨e, unfit⟩, stays⟩

end Session

end DualAscent
