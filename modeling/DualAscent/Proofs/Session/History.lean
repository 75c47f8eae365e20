import DualAscent.Proofs.Operation.Standing
import DualAscent.Proofs.Session.Order

/-!
# Answers do not show what was called before

Calls leave working costs, waiting runs and replays behind, also where they fail.  No answer shows
them: two batches of solvers of the same make answer every call alike, whatever either of them went
through, and the gradient of a dual ascent is the one that it has without anything in between.
-/

namespace DualAscent.Session

open Procedure Batch Operation

variable {α : Type} [Scalar α] [Zero α] [Add α] [Sub α] [Mul α] [Neg α]

/-- A call leads from one session to the next, whatever comes of it. -/
inductive Move (s : Session α (Solver α)) : Session α (Solver α) → Prop
  /-- The call, and the label for its record. -/
  | call {β : Type} (label : Nat) (command : Command α β) :
      Move s ((execute label command).run s).state

/-- A call that is no dual ascent which breaks off leads from one session to the next. -/
inductive WholeMove (s : Session α (Solver α)) : Session α (Solver α) → Prop
  /-- The call, and the label for its record. -/
  | call {β : Type} (label : Nat) (command : Command α β) (returns : s.Returns command) :
      WholeMove s ((execute label command).run s).state

omit [Scalar α] [Zero α] [Add α] [Sub α] [Mul α] [Neg α] in
theorem batch_recording {β ρ : Type} (label : Nat) (wrap : ρ → Record α)
    (forward : Batch.Work α (Solver α) (β × ρ)) (s : Session α (Solver α)) :
    ((recording label wrap forward).run s).state.batch = (forward.run s.batch).state := by
  cases result : (forward.run s.batch).result with
  | error e =>
      rw [(recording_of_error label wrap result).1]
      rfl
  | ok pair =>
      rw [(recording_of_ok label wrap result).state]

/-- The solvers stay what they are. -/
theorem standings_of_move {s s' : Session α (Solver α)} (move : WholeMove s s') :
    standings s'.batch = standings s.batch := by
  obtain ⟨label, command, returns⟩ := move
  have blind : Solver.Blind (Solver.standing : Solver α → Standing) := fun _ _ => rfl
  cases command with
  | ascend inputs settings =>
      rw [execute, batch_recording]
      exact standings_ascend returns
  | redistribute costs =>
      rw [execute, batch_recording]
      exact fixes_redistribute blind costs s.batch
  | minMarginals branches =>
      rw [execute, batch_recording]
      exact fixes_minMarginals blind branches s.batch
  | perturb inputs =>
      rw [execute, batch_recording]
      exact fixes_perturb blind inputs s.batch
  | lowerBounds branches =>
      rw [execute, batch_recording]
      exact fixes_lowerBounds blind branches s.batch
  | round costs settings => exact fixes_round blind costs settings s.batch
  | solution branches => exact fixes_solution blind branches s.batch
  | backward of gradients =>
      cases found : s.record? of with
      | none => rw [state_backward_of_none label found]
      | some record =>
          rw [run_backward_of_some label found]
          cases kind : record.ascent? with
          | none => exact fixes_descend blind kind gradients s.batch
          | some ascent =>
              obtain rfl := Record.ascent?_eq_some kind
              exact (fixes_ascendBackward ascent gradients).map InputGradient.ascent s.batch

theorem standings_of_reached {start s : Session α (Solver α)}
    (reached : Relation.ReflTransGen WholeMove start s) :
    standings s.batch = standings start.batch := by
  induction reached with
  | refl => rfl
  | tail _ move ih => exact (standings_of_move move).trans ih

/-- The same result or the same error. -/
def SameAnswer {β : Type} (work : Batch.Work α (Solver α) β) (b b' : Batch (Solver α)) : Prop :=
  (work.run b).result = (work.run b').result

/-- Both batches answer every operation alike, a replay at least where they accept it. -/
structure AnswersAlike (b b' : Batch (Solver α)) : Prop where
  ascend : ∀ inputs settings, SameAnswer (Operation.ascend inputs settings) b b'
  redistribute : ∀ costs, SameAnswer (Operation.redistribute costs) b b'
  minMarginals : ∀ branches, SameAnswer (Operation.minMarginals branches) b b'
  perturb : ∀ inputs, SameAnswer (Operation.perturb inputs) b b'
  lowerBounds : ∀ branches, SameAnswer (Operation.lowerBounds branches) b b'
  round : ∀ costs settings, SameAnswer (Operation.round costs settings) b b'
  solution : ∀ branches, SameAnswer (Operation.solution branches) b b'
  redistributeBackward : ∀ record gradients,
    SameAnswer (Operation.redistributeBackward record gradients) b b'
  minMarginalsBackward : ∀ record gradients,
    SameAnswer (Operation.minMarginalsBackward record gradients) b b'
  perturbBackward : ∀ record gradients, SameAnswer (Operation.perturbBackward record gradients) b b'
  lowerBoundsBackward : ∀ record gradients,
    SameAnswer (Operation.lowerBoundsBackward record gradients) b b'
  ascendBackward : ∀ record, PassesReplay b record → PassesReplay b' record → ∀ gradients,
    SameAnswer (Operation.ascendBackward record gradients) b b'

/-- Solvers in the same standing answer alike. -/
theorem answersAlike_of_standings {b b' : Batch (Solver α)} (same : standings b = standings b') :
    AnswersAlike b b' where
  ascend inputs settings := (agrees_ascend inputs settings same).result
  redistribute costs := (agrees_redistribute costs same).result
  minMarginals branches := (agrees_minMarginals branches same).result
  perturb inputs := (agrees_perturb inputs same).result
  lowerBounds branches := (agrees_lowerBounds branches same).result
  round costs settings := (agrees_round costs settings same).result
  solution branches := (agrees_solution branches same).result
  redistributeBackward record gradients :=
    (agrees_redistributeBackward record gradients same).result
  minMarginalsBackward record gradients :=
    (agrees_minMarginalsBackward record gradients same).result
  perturbBackward record gradients := (agrees_perturbBackward record gradients same).result
  lowerBoundsBackward record gradients := (agrees_lowerBoundsBackward record gradients same).result
  ascendBackward record passes passes' gradients :=
    (agrees_ascendBackward record gradients (awaited_of_passes same passes passes')).result

/-- In a session reached later a replay of the record that is accepted answers as it does right
after its own forward pass, which has left this batch. -/
structure RepliesAlone (record : AscentRecord α) (later alone : Batch (Solver α)) : Prop where
  accepted : PassesReplay later record → ∀ gradients,
    SameAnswer (Operation.ascendBackward record gradients) later alone
  answered : ∀ gradients gradient,
    ((Operation.ascendBackward record gradients).run later).result = .ok gradient →
      ((Operation.ascendBackward record gradients).run alone).result = .ok gradient

/-- Whatever was called before on batches whose solvers are of the same make, they answer every call
alike.  A dual ascent and its backward pass answer as they would without any call in between. -/
theorem answersAlike_of_reached {start start' s s' : Session α (Solver α)}
    (alike : standings start.batch = standings start'.batch)
    (reached : Relation.ReflTransGen WholeMove start s)
    (reached' : Relation.ReflTransGen WholeMove start' s') :
    AnswersAlike s.batch s'.batch ∧
      ∀ {label : Nat} {inputs : Inputs α (Buffer α)} {settings : AscentSettings α}
        {ascended : Ascended α} {record : AscentRecord α} {later : Session α (Solver α)},
        ((Operation.ascend inputs settings).run s.batch).result = .ok (ascended, record) →
        Relation.ReflTransGen WholeMove
          ((execute label (.ascend inputs settings)).run s).state later →
        let alone := (Operation.ascend inputs settings).run s'.batch
        alone.result = .ok (ascended, record) ∧ RepliesAlone record later.batch alone.state := by
  have same : standings s.batch = standings s'.batch :=
    (standings_of_reached reached).trans (alike.trans (standings_of_reached reached').symm)
  refine ⟨answersAlike_of_standings same, fun {label inputs settings ascended record later}
    answered between => ?_⟩
  have answered' : ((Operation.ascend inputs settings).run s'.batch).result =
      .ok (ascended, record) := (agrees_ascend inputs settings same).result.symm.trans answered
  have forward : standings ((execute label (.ascend inputs settings)).run s).state.batch =
      standings s.batch := by
    refine standings_of_move (.call label (.ascend inputs settings) fun cause broken => ?_)
    cases answered.symm.trans broken
  have forward' : standings ((Operation.ascend inputs settings).run s'.batch).state =
      standings s'.batch :=
    standings_ascend fun cause broken => nomatch answered'.symm.trans broken
  have together : standings later.batch =
      standings ((Operation.ascend inputs settings).run s'.batch).state :=
    ((standings_of_reached between).trans forward).trans (same.trans forward'.symm)
  have replays : PassesReplay later.batch record → ∀ gradients, SameAnswer
      (Operation.ascendBackward record gradients) later.batch
        ((Operation.ascend inputs settings).run s'.batch).state :=
    fun passes => (answersAlike_of_standings together).ascendBackward record passes
      (passesReplay_of_ascend answered')
  exact ⟨answered', replays, fun gradients gradient ok =>
    (replays (passesReplay_of_ok ok) gradients).symm.trans ok⟩

section Examples

/-- The high branch is cheaper in the first layer of each solver. -/
def uneven : Costs (Buffer ℚ) :=
  let low : Buffer ℚ := .ofArray #[3, 0, 0, 0, 0, 0]
  let high : Buffer ℚ := .ofArray #[1, 2, 2, 1, 2, 2]
  ⟨⟨low, high⟩, .ofArray (Array.replicate 6 0)⟩

/-- A dual ascent from there. -/
def unevenInputs : Inputs ℚ (Buffer ℚ) :=
  ⟨uneven, .ofArray (Array.replicate 6 (1 / 2)), .shared (1 / 2)⟩

/-- Three steps, the last two of which are tracked. -/
def threeSteps : AscentSettings ℚ := ⟨3, 2, 0, 1, 0, 0⟩

/-- A gradient of the first high branch cost. -/
def firstHigh : OutputGradients ℚ :=
  ⟨none, some (.ofArray #[1, 0, 0, 0, 0, 0]), none, none, none⟩

/-- After a dual ascent, a rounding, which leaves costs behind, and a call that is refused. -/
def busyOnce : Session ℚ (Solver ℚ) := ((execute 0 (steps 6 2)).run nested).state

def busyTwice : Session ℚ (Solver ℚ) :=
  ((execute 1 (.round uneven ⟨1, 6 / 5, 2⟩)).run busyOnce).state

def busy : Session ℚ (Solver ℚ) :=
  ((execute 2 (.solution ⟨uneven.lo, .ofArray #[]⟩)).run busyTwice).state

/-- After a further dual ascent, and then a call between its two passes. -/
def busyAscended : Session ℚ (Solver ℚ) :=
  ((execute 3 (.ascend unevenInputs threeSteps)).run busy).state

def busyLater : Session ℚ (Solver ℚ) :=
  ((execute 4 (.lowerBounds uneven.toBranches)).run busyAscended).state

theorem busy_answersAlike :
    AnswersAlike busy.batch nested.batch ∧
      busy.batch.members.map (·.solver.pending) = [[1], [2]] ∧
      ∃ ascended record gradient,
        let alone := (Operation.ascend unevenInputs threeSteps).run nested.batch
        alone.result = .ok (ascended, record) ∧
          ((Operation.ascendBackward record firstHigh).run busyLater.batch).result =
            .ok gradient ∧
          ((Operation.ascendBackward record firstHigh).run alone.state).result = .ok gradient := by
  have first : ((Operation.ascend (idle 6) ⟨2, 1, 0, 1, 0, 0⟩ : Batch.Work ℚ (Solver ℚ) _).run
      nested.batch).result.toOption.isSome = true := by decide +kernel
  obtain ⟨once, once_eq⟩ := Option.isSome_iff_exists.mp first
  rw [toOption_eq_some_iff] at once_eq
  have ascended : WholeMove nested busyOnce :=
    .call 0 (steps 6 2) fun _ broken => nomatch once_eq.symm.trans broken
  have rounded : WholeMove busyOnce busyTwice :=
    .call 1 (.round uneven ⟨1, 6 / 5, 2⟩) trivial
  have refused : WholeMove busyTwice busy :=
    .call 2 (.solution ⟨uneven.lo, .ofArray #[]⟩) trivial
  have toBusy : Relation.ReflTransGen WholeMove nested busy :=
    .tail (.tail (.single ascended) rounded) refused
  have toLater : Relation.ReflTransGen WholeMove busyAscended busyLater :=
    .single (.call 4 (.lowerBounds uneven.toBranches) trivial)
  obtain ⟨alike, pairs⟩ := answersAlike_of_reached rfl toBusy .refl
  have replayed : (((Operation.ascend unevenInputs threeSteps : Batch.Work ℚ (Solver ℚ) _).run
      busy.batch).result.toOption.bind fun (_, record) =>
        ((Operation.ascendBackward record firstHigh).run busyLater.batch).result.toOption).isSome =
          true := by decide +kernel
  obtain ⟨gradient, found⟩ := Option.isSome_iff_exists.mp replayed
  obtain ⟨⟨ascended, record⟩, answered, swept⟩ := Option.bind_eq_some_iff.mp found
  rw [toOption_eq_some_iff] at answered swept
  obtain ⟨forward, backward⟩ := pairs answered toLater
  exact ⟨alike, by decide +kernel, ascended, record, gradient, forward, swept,
    backward.answered firstHigh gradient swept⟩

/-- A solver with more variables than there is memory to sum up. -/
def vast : Session ℚ (Solver ℚ) :=
  ⟨ofSolvers [Solver.ofDiagrams ⟨4611686018427387904, [[.last 4611686018427387903]]⟩ none none], []⟩

/-- After a dual ascent that breaks off. -/
def vastOnce : Session ℚ (Solver ℚ) := ((execute 0 (steps 2 1)).run vast).state

/-- Once a dual ascent has broken off, not even lower bounds are what they were. -/
theorem vast_not_answersAlike :
    views Solver.make vast.batch = views Solver.make vastOnce.batch ∧
      Relation.ReflTransGen Move vast vastOnce ∧ ¬AnswersAlike vast.batch vastOnce.batch := by
  have makes : views Solver.make vastOnce.batch = views Solver.make vast.batch := by
    rw [vastOnce, steps, execute, batch_recording]
    exact fixes_ascend _ _ vast.batch
  refine ⟨makes.symm, .single (.call 0 (steps 2 1)), fun alike => ?_⟩
  have answered : ((Operation.lowerBounds (idle 2).costs.toBranches).run
      vast.batch).result.toOption.isSome = true := by decide +kernel
  have lost : ((Operation.lowerBounds (idle 2).costs.toBranches).run
      vastOnce.batch).result.toOption.isSome = false := by decide +kernel
  rw [alike.lowerBounds, lost] at answered
  cases answered

end Examples

end DualAscent.Session
