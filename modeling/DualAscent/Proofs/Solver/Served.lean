import DualAscent.Proofs.Solver.Iterate

/-!
# What a call leaves behind

A call is refused, and then the solver and the slices lent to it are as before, or it is answered,
which may bind other costs and enters a run or a replay in the books.  Rounding that gives up keeps
the costs it arrived at.  Without memory for the sums of its steps a run breaks off and takes the
deferred min-marginals along; on a solver without them, costs are bound or copied by half.
-/

namespace DualAscent

open Procedure Lent

/-- What an answered call enters in the books of a solver. -/
inductive Entry where
  /-- A run of so many steps. -/
  | run (steps : Nat)
  /-- A replay of the latest run. -/
  | replay (window : ReplayWindow) (caches : Nat)

namespace Invocation

variable {α δ β : Type}

/-- What a call enters if this is returned. -/
def entry? : Invocation α δ β → β → Option Entry
  | .iterations .., steps => some (.run steps)
  | .gradIterations _ _ window caches, _ => some (.replay window caches)
  | _, _ => none

theorem routine_of_run {called : Invocation α δ β} {value : β} {steps : Nat}
    (entered : called.entry? value = some (.run steps)) : called.routine = .iterations := by
  cases called with
  | iterations weights most damping slope => rfl
  | _ => cases entered

theorem routine_of_replay {called : Invocation α δ β} {value : β} {window : ReplayWindow}
    {caches : Nat} (entered : called.entry? value = some (.replay window caches)) :
    called.routine = .gradIterations := by
  cases called with
  | gradIterations weights damping window caches => rfl
  | _ => cases entered

end Invocation

/-- A call of any routine, with the slices lent for it. -/
structure AnyCall (α : Type) where
  /-- The slices. -/
  {Slices : Type}
  /-- What is returned. -/
  {Value : Type}
  /-- The call. -/
  invocation : Invocation α Slices Value
  /-- What the slices hold. -/
  slices : Slices

namespace Solver

variable {α δ β γ : Type}

/-- The solver with an entry in its books. -/
def enter (s : Solver α) : Option Entry → Solver α
  | none => s
  | some (.run steps) => { s with pending := steps :: s.pending }
  | some (.replay window caches) =>
    { s with pending := s.pending.tail, replays := s.replays.push ⟨window, caches⟩ }

/-- What a call can do to a solver and to the slices lent for it, and how it can end. -/
inductive Serves [Zero α] (s : Solver α) (slices : δ) (called : Invocation α δ β) :
    Lent (Solver α) δ → Except EngineError β → Prop
  /-- It fails without a trace. -/
  | refused (e : EngineError) : Serves s slices called ⟨s, slices⟩ (.error e)
  /-- Rounding finds no agreement and keeps the costs it arrived at. -/
  | gaveUp (costs : Costs (Vector α s.layers)) (rounds : called.routine = .rounding) :
      Serves s slices called ⟨{ s with costs }, slices⟩ (.error (.noAgreement mostRounds))
  /-- A run breaks off for lack of memory. -/
  | brokeOff (runs : called.routine = .iterations) (unfit : fitsMemory s.slots sumBytes = false) :
      Serves s slices called ⟨s.torn, slices⟩ (.error (.misuse .outOfMemory))
  /-- Only the costs of the branches can be bound. -/
  | halfBound (binds : called.routine = .setCosts) (lost : s.intact = false)
      (branches : Branches (Vector α s.layers)) :
      Serves s slices called ⟨{ s with costs := { s.costs with toBranches := branches } }, slices⟩
        (.error (.misuse .deferredLost))
  /-- Only the costs of the branches can be copied. -/
  | halfCopied (copies : called.routine = .costs) (lost : s.intact = false) (written : δ) :
      Serves s slices called ⟨s, written⟩ (.error (.misuse .deferredLost))
  /-- It is answered. -/
  | answered {reached : Solver α} (costs : Costs (Vector α s.layers)) (written : δ) (value : β)
      (entered : reached = enter { s with costs } (called.entry? value)) :
      Serves s slices called ⟨reached, written⟩ (.ok value)

theorem serves_lift_bind [Zero α] {s : Solver α} {slices : δ} {called : Invocation α δ β}
    {check : Except EngineError γ} {next : γ → LentWork α δ β}
    (rest : ∀ value, check = .ok value →
      Serves s slices called ((next value).run ⟨s, slices⟩).state
        ((next value).run ⟨s, slices⟩).result) :
    Serves s slices called ((lift check >>= next).run ⟨s, slices⟩).state
      ((lift check >>= next).run ⟨s, slices⟩).result := by
  cases check with
  | error e => exact .refused e
  | ok value => exact rest value rfl

theorem serves_onEngine_lift_bind [Zero α] {s : Solver α} {slices : δ} {called : Invocation α δ β}
    {check : Except EngineError γ} {next : γ → Work α β}
    (rest : ∀ value, check = .ok value →
      Serves s slices called ((onEngine (next value)).run ⟨s, slices⟩).state
        ((onEngine (next value)).run ⟨s, slices⟩).result) :
    Serves s slices called ((onEngine (lift check >>= next)).run ⟨s, slices⟩).state
      ((onEngine (lift check >>= next)).run ⟨s, slices⟩).result := by
  cases check with
  | error e => exact .refused e
  | ok value => exact rest value rfl

theorem checkIntact_cases (s : Solver α) :
    (s.intact = true ∧ s.checkIntact = .ok ()) ∨
      (s.intact = false ∧ s.checkIntact = .error (.misuse .deferredLost)) := by
  cases intact : s.intact with
  | true => exact .inl ⟨rfl, if_pos intact⟩
  | false => exact .inr ⟨rfl, if_neg (Bool.not_eq_true _ ▸ intact)⟩

variable [Scalar α] [Zero α] [Add α] [Sub α] [Mul α] [Neg α]

theorem serves_iterations (s : Solver α) (slices : Option (TrendSlices α)) (weights : Array α)
    (most : Nat) (damping : Damping α (Array α)) (slope : α) :
    let outcome := (iterateInto weights most damping slope).run ⟨s, slices⟩
    Serves s slices (.iterations weights most damping slope) outcome.state outcome.result := by
  rw [iterateInto, run_read_bind]
  refine serves_lift_bind fun weights' _ => serves_lift_bind fun damping' _ =>
    serves_lift_bind fun _ _ => ?_
  rcases fits_or_unfit s most with fits | unfit
  · have quiet := run_onEngine_of_run (run_reserveSums_of_fits fits) slices
    rw [cap] at quiet
    rw [run_bind_of_ok (congrArg Outcome.result quiet), quiet]
    dsimp only
    generalize (Ascent.mk s.diagrams.slotOf weights' damping').run _ _ _ = ended
    obtain ⟨finish, settled⟩ := ended
    cases settled with
    | none => exact .answered finish.current _ finish.steps rfl
    | some improvement => exact .answered finish.current _ finish.steps rfl
  · have broken := run_onEngine_of_run (run_reserveSums_of_unfit unfit) slices
    rw [cap] at broken
    rw [run_bind_of_error (congrArg Outcome.result broken), broken]
    exact .brokeOff rfl unfit.2

omit [Scalar α] in
theorem serves_gradIterations (s : Solver α) (slices : Inputs α (Array α)) (weights : Array α)
    (damping : Damping α (Array α)) (window : ReplayWindow) (caches : Nat) :
    let outcome := (iterateBackwardInto weights damping window caches).run ⟨s, slices⟩
    Serves s slices (.gradIterations weights damping window caches) outcome.state
      outcome.result := by
  rw [iterateBackwardInto, run_read_bind]
  repeat refine serves_lift_bind fun _ _ => ?_
  dsimp only
  split
  · exact .refused _
  · exact .answered s.costs _ () rfl

/-- Every call is refused, or answered, or leaves a trace in one of four ways. -/
theorem serves (s : Solver α) (slices : δ) (called : Invocation α δ β) :
    Serves s slices called ((call called).run ⟨s, slices⟩).state
      ((call called).run ⟨s, slices⟩).result := by
  cases called with
  | iterations weights most damping slope =>
      exact serves_iterations s slices weights most damping slope
  | gradIterations weights damping window caches =>
      exact serves_gradIterations s slices weights damping window caches
  -- These write no slice.
  | setCosts costs =>
      rw [call, bindCosts, run_onEngine_read_bind]
      refine serves_onEngine_lift_bind fun lo _ => serves_onEngine_lift_bind fun hi _ =>
        serves_onEngine_lift_bind fun deferred _ => ?_
      rcases s.checkIntact_cases with ⟨-, intact⟩ | ⟨lost, broken⟩
      · rw [intact]
        exact .answered ⟨⟨lo, hi⟩, deferred⟩ slices () rfl
      · rw [broken]
        exact .halfBound rfl lost ⟨lo, hi⟩
  | distributeDelta =>
      rw [call, distribute, run_onEngine_read_bind]
      exact serves_onEngine_lift_bind fun _ _ => .answered _ slices () rfl
  | perturb change =>
      rw [call, perturb, run_onEngine_read_bind]
      repeat refine serves_onEngine_lift_bind fun _ _ => ?_
      exact .answered _ slices () rfl
  | rounding settings =>
      rw [call, round, run_onEngine_read_bind]
      refine serves_onEngine_lift_bind fun _ _ => serves_onEngine_lift_bind fun weights _ => ?_
      dsimp only
      split
      · exact .gaveUp _ rfl
      · exact .answered _ slices _ rfl
  -- These only check, and write their slices then.
  | costs =>
      rw [call, costsInto, run_read_bind]
      repeat refine serves_lift_bind fun _ _ => ?_
      rcases s.checkIntact_cases with ⟨-, intact⟩ | ⟨lost, broken⟩
      · rw [intact]
        exact .answered s.costs _ () rfl
      · rw [broken]
        exact .halfCopied rfl lost _
  | gradDistributeDelta gradient =>
      rw [call, distributeBackwardInto, run_read_bind]
      repeat refine serves_lift_bind fun _ _ => ?_
      exact .answered s.costs _ () rfl
  | minMarginals =>
      rw [call, minMarginalsInto, run_read_bind]
      repeat refine serves_lift_bind fun _ _ => ?_
      exact .answered s.costs _ () rfl
  | gradMinMarginals gradient =>
      rw [call, minMarginalsBackwardInto, run_read_bind]
      repeat refine serves_lift_bind fun _ _ => ?_
      exact .answered s.costs _ () rfl
  | gradPerturb gradient =>
      rw [call, perturbBackwardInto, run_read_bind]
      repeat refine serves_lift_bind fun _ _ => ?_
      exact .answered s.costs _ () rfl
  | lowerBounds =>
      rw [call, lowerBoundsInto, run_read_bind]
      repeat refine serves_lift_bind fun _ _ => ?_
      exact .answered s.costs _ () rfl
  | gradLowerBounds gradient =>
      rw [call, lowerBoundsBackwardInto, run_read_bind]
      repeat refine serves_lift_bind fun _ _ => ?_
      exact .answered s.costs _ () rfl
  | solution =>
      rw [call, solutionInto, run_read_bind]
      repeat refine serves_lift_bind fun _ _ => ?_
      exact .answered s.costs _ () rfl

/-- An answer may bind other costs, and is entered in the books. -/
theorem state_of_ok {s : Solver α} {slices : δ} {called : Invocation α δ β} {value : β}
    (ok : ((call called).run ⟨s, slices⟩).result = .ok value) :
    ∃ costs, ((call called).run ⟨s, slices⟩).state.engine =
      enter { s with costs } (called.entry? value) := by
  have served := serves s slices called
  rw [ok] at served
  generalize ((call called).run ⟨s, slices⟩).state = reached at served ⊢
  cases served with
  | answered costs written value entered => exact ⟨costs, entered⟩

/-- A failure leaves no trace but for rounding that gives up, which binds other costs, for a run
that breaks off, and for costs that are bound or copied by half. -/
theorem state_of_error {s : Solver α} {slices : δ} {called : Invocation α δ β} {e : EngineError}
    (failed : ((call called).run ⟨s, slices⟩).result = .error e) :
    let reached := ((call called).run ⟨s, slices⟩).state
    reached = ⟨s, slices⟩ ∨
      (called.routine = .rounding ∧ e = .noAgreement mostRounds ∧
        ∃ costs, reached = ⟨{ s with costs }, slices⟩) ∨
      (called.routine = .iterations ∧ e = .misuse .outOfMemory ∧
        fitsMemory s.slots sumBytes = false ∧ reached = ⟨s.torn, slices⟩) ∨
      ((called.routine = .setCosts ∨ called.routine = .costs) ∧ e = .misuse .deferredLost ∧
        s.intact = false ∧
        ∃ branches written, reached =
          ⟨{ s with costs := { s.costs with toBranches := branches } }, written⟩) := by
  have served := serves s slices called
  rw [failed] at served
  generalize ((call called).run ⟨s, slices⟩).state = reached at served ⊢
  cases served with
  | refused => exact .inl rfl
  | gaveUp costs rounds => exact .inr (.inl ⟨rounds, rfl, costs, rfl⟩)
  | brokeOff runs unfit => exact .inr (.inr (.inl ⟨runs, rfl, unfit, rfl⟩))
  | halfBound binds lost branches =>
      exact .inr (.inr (.inr ⟨.inl binds, rfl, lost, branches, slices, rfl⟩))
  | halfCopied copies lost written =>
      exact .inr (.inr (.inr ⟨.inr copies, rfl, lost, s.costs.toBranches, written, rfl⟩))

/-- A call that fails leaves the runs and replays on record as they are. -/
theorem record_of_error {s : Solver α} {slices : δ} {called : Invocation α δ β} {e : EngineError}
    (failed : ((call called).run ⟨s, slices⟩).result = .error e) :
    ((call called).run ⟨s, slices⟩).state.engine.pending = s.pending ∧
      ((call called).run ⟨s, slices⟩).state.engine.replays = s.replays := by
  rcases state_of_error failed with untouched | ⟨-, -, costs, gaveUp⟩ | ⟨-, -, -, brokeOff⟩ |
    ⟨-, -, -, branches, written, half⟩
  · rw [untouched]
    exact ⟨rfl, rfl⟩
  · rw [gaveUp]
    exact ⟨rfl, rfl⟩
  · rw [brokeOff]
    exact ⟨rfl, rfl⟩
  · rw [half]
    exact ⟨rfl, rfl⟩

/-- The solver after a call, whatever comes of it. -/
def next (s : Solver α) (called : AnyCall α) : Solver α :=
  ((call called.invocation).run ⟨s, called.slices⟩).state.engine

/-- The solver after some calls, whatever comes of them. -/
def afterAll (s : Solver α) (calls : List (AnyCall α)) : Solver α := calls.foldl next s

/-- What a call enters in the books; nothing if it fails. -/
def entry? (s : Solver α) (called : AnyCall α) : Option Entry :=
  match ((call called.invocation).run ⟨s, called.slices⟩).result with
  | .ok value => called.invocation.entry? value
  | .error _ => none

end Solver

end DualAscent
