import DualAscent.Proofs.Agree
import DualAscent.Proofs.Solver.Ledger

/-!
# What a solver's answers depend on

Once costs are bound, nothing that a solver was asked before shows in its answers, but for the
length of its latest run, which a replay is checked against.  Whether costs can be bound depends on
how the solver was made and on whether its deferred min-marginals are in place.
-/

namespace DualAscent

open Procedure

/-- What a solver was made of. -/
structure Make where
  /-- The diagrams. -/
  diagrams : Diagrams
  /-- Most iterations per run, if there is such a limit. -/
  limit : Option Nat
  /-- A routine that is set up to fail. -/
  failure : Option Routine

/-- What a solver was made of, and whether it can be bound to costs. -/
structure Standing extends Make where
  /-- The deferred min-marginals are in place. -/
  intact : Bool

/-- A run that was made before is replayed. -/
def Routine.replays (routine : Routine) : Bool := routine = .gradIterations

namespace Solver

variable {α β : Type}

/-- What the solver was made of. -/
def make (s : Solver α) : Make := ⟨s.diagrams, s.limit, s.failure⟩

/-- The make of the solver, and whether its deferred min-marginals are in place. -/
def standing (s : Solver α) : Standing := ⟨s.make, s.intact⟩

/-- The solver without the account of its runs. -/
def unrun (s : Solver α) : Solver α := { s with pending := [], replays := #[] }

/-- Length of the latest run that waits for its gradient; zero if there is none. -/
def latest (s : Solver α) : Nat := s.pending.head?.getD 0

variable {s s' : Solver α}

theorem exists_of_standing (same : s.standing = s'.standing) :
    ∃ costs pending replays, s' = { s with costs, pending, replays } := by
  obtain ⟨diagrams, costs, limit, failure, pending, replays, intact⟩ := s
  obtain ⟨diagrams', costs', limit', failure', pending', replays', intact'⟩ := s'
  simp only [standing, make, Standing.mk.injEq, Make.mk.injEq] at same
  obtain ⟨⟨rfl, rfl, rfl⟩, rfl⟩ := same
  exact ⟨costs', pending', replays', rfl⟩

theorem exists_of_unrun (same : s.unrun = s'.unrun) :
    ∃ pending replays, s' = { s with pending, replays } :=
  ⟨s'.pending, s'.replays, congrArg
    (fun t : Solver α => { t with pending := s'.pending, replays := s'.replays }) same.symm⟩

theorem agrees_reserveSums [Zero α] (steps : Nat) :
    Agrees (unrun : Solver α → Solver α) unrun (reserveSums steps) := by
  intro s s' same
  obtain ⟨_, _, rfl⟩ := exists_of_unrun same
  rw [reserveSums, run_read_bind, run_read_bind]
  split
  · exact ⟨rfl, fun _ ok => by cases ok⟩
  · exact ⟨rfl, fun _ _ => rfl⟩

section Engine

variable [Scalar α] [Zero α] [Add α] [Sub α] [Mul α] [Neg α]

theorem agrees_setCosts (costs : Costs (Array α)) :
    Agrees standing unrun (serve (.setCosts costs)) := by
  intro s s' same
  obtain ⟨_, _, _, rfl⟩ := exists_of_standing same
  rw [serve_setCosts, bindCosts, run_read_bind, run_read_bind]
  refine agree_lift_bind fun lo => agree_lift_bind fun hi => agree_lift_bind fun deferred => ?_
  rw [run_write_bind, run_write_bind]
  exact agree_lift_bind fun _ => ⟨rfl, fun _ _ => rfl⟩

/-- Other requests than a replay do not see the account of runs. -/
theorem agrees_serve {request : Request α β} (ahead : request.routine.replays = false) :
    Agrees unrun unrun (serve request) := by
  intro s s' same
  obtain ⟨pending, replays, rfl⟩ := exists_of_unrun same
  cases request with
  | gradIterations => cases ahead
  | setCosts costs => exact agrees_setCosts costs rfl
  | iterations weights most damping slope trend =>
      rw [serve_iterations, iterate_eq, run_read_bind, run_read_bind]
      refine agree_lift_bind fun weights => agree_lift_bind fun damping =>
        agree_lift_bind fun _ => agree_bind (agrees_reserveSums _ rfl) fun _ t t' same => ?_
      dsimp only
      split
      · next early =>
          split
          · exact ⟨rfl, fun _ _ => rfl⟩
          · next late => cases early.symm.trans late
      · next late =>
          split
          · next early => cases early.symm.trans late
          · exact ⟨rfl, fun _ _ => rfl⟩
  | rounding settings =>
      rw [serve_rounding, round, run_read_bind, run_read_bind]
      refine agree_lift_bind fun _ => agree_lift_bind fun weights => ?_
      dsimp only
      split
      · next apart =>
          split
          · exact ⟨rfl, fun _ _ => rfl⟩
          · next agreed => cases apart.symm.trans agreed
      · next agreed =>
          split
          · next apart => cases apart.symm.trans agreed
          · next agreed' =>
              cases agreed.symm.trans agreed'
              exact ⟨rfl, fun _ _ => rfl⟩
  | costs space =>
      rw [serve_costs, readCosts_eq, run_read_bind, run_read_bind]
      repeat refine agree_lift_bind fun _ => ?_
      exact ⟨rfl, fun _ _ => rfl⟩
  | distributeDelta =>
      rw [serve_distributeDelta, distribute, run_read_bind, run_read_bind]
      exact agree_lift_bind fun _ => ⟨rfl, fun _ _ => rfl⟩
  | gradDistributeDelta gradient space =>
      rw [serve_gradDistributeDelta, distributeBackward_eq, run_read_bind, run_read_bind]
      repeat refine agree_lift_bind fun _ => ?_
      exact ⟨rfl, fun _ _ => rfl⟩
  | minMarginals space =>
      rw [serve_minMarginals, minMarginals_eq, run_read_bind, run_read_bind]
      repeat refine agree_lift_bind fun _ => ?_
      exact ⟨rfl, fun _ _ => rfl⟩
  | gradMinMarginals gradient space =>
      rw [serve_gradMinMarginals, minMarginalsBackward_eq, run_read_bind, run_read_bind]
      repeat refine agree_lift_bind fun _ => ?_
      exact ⟨rfl, fun _ _ => rfl⟩
  | perturb change =>
      rw [serve_perturb, perturb, run_read_bind, run_read_bind]
      repeat refine agree_lift_bind fun _ => ?_
      exact ⟨rfl, fun _ _ => rfl⟩
  | gradPerturb gradient space =>
      rw [serve_gradPerturb, perturbBackward_eq, run_read_bind, run_read_bind]
      repeat refine agree_lift_bind fun _ => ?_
      exact ⟨rfl, fun _ _ => rfl⟩
  | lowerBounds space =>
      rw [serve_lowerBounds, lowerBounds_eq, run_read_bind, run_read_bind]
      repeat refine agree_lift_bind fun _ => ?_
      exact ⟨rfl, fun _ _ => rfl⟩
  | gradLowerBounds gradient low space =>
      rw [serve_gradLowerBounds, lowerBoundsBackward_eq, run_read_bind, run_read_bind]
      repeat refine agree_lift_bind fun _ => ?_
      exact ⟨rfl, fun _ _ => rfl⟩
  | solution space =>
      rw [serve_solution, solution_eq, run_read_bind, run_read_bind]
      repeat refine agree_lift_bind fun _ => ?_
      exact ⟨rfl, fun _ _ => rfl⟩

omit [Scalar α] in
/-- A replay sees the length of the latest run besides. -/
theorem agrees_iterateBackward (weights : Array α) (damping : Damping α (Array α))
    (gradient : Inputs α (Array α)) (window : ReplayWindow) (caches : Nat) :
    Agrees (fun s => (s.unrun, s.latest)) unrun
      (iterateBackward weights damping gradient window caches) := by
  intro s s' same
  obtain ⟨pending, replays, rfl⟩ := exists_of_unrun (congrArg Prod.fst same)
  have heads : s.pending.head?.getD 0 = pending.head?.getD 0 := congrArg Prod.snd same
  rw [iterateBackward_eq, run_read_bind, run_read_bind]
  repeat refine agree_lift_bind fun _ => ?_
  dsimp only
  rw [heads]
  split
  · exact ⟨rfl, fun _ ok => by cases ok⟩
  · exact ⟨rfl, fun _ _ => rfl⟩

omit [Scalar α] in
theorem latest_of_iterateBackward {weights : Array α} {damping : Damping α (Array α)}
    {gradient swept : Inputs α (Array α)} {window : ReplayWindow} {caches : Nat} {s : Solver α}
    (ok : ((iterateBackward weights damping gradient window caches).run s).result = .ok swept) :
    s.latest = window.total := by
  rcases iterateBackward_cases s weights damping gradient window caches with
    ⟨-, e, failed⟩ | ⟨_, _, _, -, -, -, agreed, -⟩
  · cases failed.symm.trans ok
  · exact agreed.symm

omit [Scalar α] in
theorem fixes_standing_iterateBackward (weights : Array α) (damping : Damping α (Array α))
    (gradient : Inputs α (Array α)) (window : ReplayWindow) (caches : Nat) :
    Fixes standing (iterateBackward weights damping gradient window caches) := by
  intro s
  rcases iterateBackward_cases s weights damping gradient window caches with
    ⟨refused, -⟩ | ⟨_, _, _, -, -, -, -, replayed⟩
  · rw [refused]
  · rw [replayed.state]
    rfl

theorem fixes_make_iterate (weights : Array α) (most : Nat) (damping : Damping α (Array α))
    (slope : α) (trend : Option (TrendRequest α)) :
    Fixes make (iterate weights most damping slope trend) := by
  intro s
  rcases iterate_cases s weights most damping slope trend with
    ⟨refused, -⟩ | ⟨broken, -⟩ | ⟨_, _, -, -, finished, -⟩
  · rw [refused]
  · rw [broken]
    rfl
  · rw [finished]
    rfl

end Engine

end Solver

end DualAscent
