import DualAscent.Proofs.Sized
import DualAscent.Proofs.Solver.Replay
import DualAscent.Proofs.Solver.Served

/-!
# The ledger of a solver

A solver keeps account of its runs and of their replays.  No request but those for a run or for a
replay touches that account, whether it succeeds or fails; rounding iterates without leaving a
trace in it.  A run that does not break off enters its length there.
-/

namespace DualAscent

open Procedure

/-- What a solver keeps apart from its costs: the diagrams, whether the deferred min-marginals are
in place, the runs that wait for their gradient, and the replays served. -/
structure Ledger where
  /-- The diagrams. -/
  diagrams : Diagrams
  /-- The deferred min-marginals are in place. -/
  intact : Bool
  /-- Lengths of the waiting runs, the latest first. -/
  pending : List Nat
  /-- Replays served, the oldest first. -/
  replays : Array Replay

/-- A further run waits for its gradient. -/
def Ledger.enter (ledger : Ledger) (run : Nat) : Ledger :=
  { ledger with pending := run :: ledger.pending }

/-- The latest waiting run is settled by a replay. -/
def Ledger.settle (ledger : Ledger) (tracked caches : Nat) : Ledger :=
  { ledger with
    pending := ledger.pending.tail
    replays := ledger.replays.push ⟨.ofRun (ledger.pending.head?.getD 0) tracked, caches⟩ }

/-- A run or a replay is entered in the ledger. -/
def Routine.enters (routine : Routine) : Bool := routine = .iterations ∨ routine = .gradIterations

namespace Solver

variable {α : Type}

/-- The ledger of a solver. -/
def ledger (s : Solver α) : Ledger := ⟨s.diagrams, s.intact, s.pending, s.replays⟩

/-- The view does not show the working costs. -/
def Blind {τ : Type} (view : Solver α → τ) : Prop :=
  ∀ (s : Solver α) (costs : Costs (Vector α s.layers)), view { s with costs } = view s

theorem blind_ledger : Blind (ledger : Solver α → Ledger) := fun _ _ => rfl

section Recordless

variable [Scalar α] [Zero α] [Add α] [Sub α] [Mul α] [Neg α] {τ : Type} {view : Solver α → τ}

/-- No other request touches anything but the costs. -/
theorem fixes_serve (blind : Blind view) {β : Type} {request : Request α β}
    (silent : request.routine.enters = false) : Fixes view (serve request) := by
  intro s
  rw [← request.routine_lending] at silent
  have served := serves s request.lending.slices request.lending.invocation
  show view ((call request.lending.invocation).run ⟨s, request.lending.slices⟩).state.engine = _
  generalize ((call request.lending.invocation).run ⟨s, request.lending.slices⟩).state = reached,
    ((call request.lending.invocation).run ⟨s, request.lending.slices⟩).result = result at served ⊢
  cases served with
  | refused => rfl
  | gaveUp costs => exact blind s costs
  | brokeOff runs =>
      rw [runs] at silent
      cases silent
  | halfBound binds lost branches => exact blind s _
  | halfCopied => rfl
  | answered costs written value entered =>
      rw [entered]
      cases entry : request.lending.invocation.entry? value with
      | none => exact blind s costs
      | some entry' =>
          cases entry' with
          | run steps =>
              rw [Invocation.routine_of_run entry] at silent
              cases silent
          | replay window caches =>
              rw [Invocation.routine_of_replay entry] at silent
              cases silent

end Recordless

section Run

variable [Scalar α] [Zero α] [Add α] [Sub α] [Mul α] [Neg α] {s : Solver α}

theorem setCosts_cases {costs : Costs (Array α)} (sized : costs.Sized s.layers) :
    ((serve (.setCosts costs)).run s).result = .error (.misuse .deferredLost) ∨
      s.intact = true ∧ ∃ bound, (serve (.setCosts costs)).Yields s bound () ∧
        bound.ledger = s.ledger := by
  rw [← sized.map_fit]
  by_cases intact : s.intact = true
  · exact .inr ⟨intact, _, yields_setCosts intact (costs.map (fit s.layers)), rfl⟩
  · left
    simp only [serve_setCosts, bindCosts, run_read_bind, Costs.map, segment_toArray,
      run_lift_ok_bind, run_write_bind, checkIntact, if_neg intact]
    rfl

theorem intact_of_setCosts {costs : Costs (Array α)} {value : Unit}
    (ok : ((serve (.setCosts costs)).run s).result = .ok value) : s.intact = true := by
  simp only [serve_setCosts, bindCosts, run_read_bind, result_lift_bind_eq_ok_iff,
    run_write_bind] at ok
  obtain ⟨_, -, _, -, _, -, _, intact, -⟩ := ok
  rw [checkIntact] at intact
  split at intact
  · next there => exact there
  · cases intact

omit [Scalar α] [Add α] [Sub α] [Mul α] [Neg α] in
theorem yields_readCosts (intact : s.intact = true) {n : Nat} (long : n = s.layers) :
    (readCosts ⟨⟨n, n⟩, n⟩).Yields s s (s.costs.map Vector.toArray) := by
  have fits : ∀ name, room name n s.layers = .ok () := fun _ => if_pos long
  have run_eq : (readCosts ⟨⟨n, n⟩, n⟩).run s = ⟨[], s, .ok (s.costs.map Vector.toArray)⟩ := by
    simp only [readCosts_eq, run_read_bind, fits, run_lift_ok_bind, checkIntact, intact, if_true,
      run_pure]
  exact .of_run run_eq

omit [Scalar α] [Zero α] [Add α] [Sub α] [Mul α] [Neg α] in
/-- If there is room for a summary, a lack of memory is all that can be wrong with it. -/
theorem checkTrend_cases (intact : s.intact = true) {trend : Option (TrendRequest α)}
    (fits : ∀ request ∈ trend, request.room = ⟨s.layers, s.bdds, s.bdds⟩) :
    s.checkTrend trend = .error (.misuse .outOfMemory) ∨ s.checkTrend trend = .ok () := by
  cases trend with
  | none => exact .inr rfl
  | some request =>
      have roomy := fits request rfl
      simp only [checkTrend, roomy, room, if_true, checkIntact, intact]
      by_cases memory : fitsMemory (request.window + 1) stepBytes = true
      · right
        rw [if_pos memory]
        rfl
      · left
        rw [if_neg memory]
        rfl

/-- A request that fits the solver runs out of memory, or its length is entered. -/
theorem iterations_of_fits (intact : s.intact = true) {weights : Array α}
    (weighed : weights.size = s.layers) (most : Nat) {damping : Damping α (Array α)}
    (damped : damping.Sized s.layers) (slope : α) {trend : Option (TrendRequest α)}
    (fits : ∀ request ∈ trend, request.room = ⟨s.layers, s.bdds, s.bdds⟩) :
    let outcome := (serve (.iterations weights most damping slope trend)).run s
    outcome.result = .error (.misuse .outOfMemory) ∨
      ∃ realized, outcome.result = .ok realized ∧
        outcome.state.ledger = s.ledger.enter realized.iterations := by
  rw [serve_iterations, ← toArray_fit weighed, ← damped.map_fit]
  rcases checkTrend_cases intact fits with unfit | roomy
  · left
    simp only [iterate_eq, run_read_bind, segment_toArray, dampingSegment_map_toArray,
      run_lift_ok_bind, unfit]
    rfl
  · rcases iterate_accepted (fit s.layers weights) most
      (damping.map (fit s.layers)) slope roomy with
      ⟨-, broken, -⟩ | ⟨reached, finished⟩
    · exact .inl broken
    · exact .inr ⟨_, finished, congrArg ledger reached⟩

end Run

end Solver

end DualAscent
