import DualAscent.Proofs.Solver.Room
import DualAscent.Proofs.Solver.Standing

/-!
# Requests that suit a solver

A request suits a solver if all its segments and rooms have the lengths that the solver expects.
What can still go wrong then is known: costs that are not in place, memory that is not there, a
failure that was set up, a replay of another run, and rounding without agreement.
-/

namespace DualAscent

open Procedure

variable {α β : Type}

namespace Request

/-- All segments and rooms have the lengths that a solver for these diagrams expects. -/
def Suits (d : Diagrams) : Request α β → Prop
  | setCosts bound => bound.Sized d.layers
  | costs room => room = ⟨⟨d.layers, d.layers⟩, d.layers⟩
  | iterations weights _ damping _ trend => weights.size = d.layers ∧ damping.Sized d.layers ∧
      ∀ asked ∈ trend, asked.room = ⟨d.layers, d.bdds, d.bdds⟩
  | gradIterations weights damping gradient _ _ => weights.size = d.layers ∧
      damping.Sized d.layers ∧ gradient.Sized d.layers
  | distributeDelta => True
  | gradDistributeDelta gradient room => gradient.Sized d.layers ∧ room = d.layers
  | minMarginals room => room = d.layers
  | gradMinMarginals gradient room => gradient.size = d.layers ∧ room = ⟨d.layers, d.layers⟩
  | perturb change => change.Sized d.slots
  | gradPerturb gradient room => gradient.Sized d.layers ∧ room = ⟨d.slots, d.slots⟩
  | lowerBounds room => room = d.bdds
  | gradLowerBounds gradient low room => gradient.size = d.bdds ∧ low.size = d.layers ∧
      room = d.layers
  | rounding _ => True
  | solution room => room = d.layers

/-- A solver of this standing has what the request takes: costs in place, and memory. -/
def Affordable (standing : Standing) : Request α β → Prop
  | iterations _ most _ _ trend => standing.intact = true ∧
      (∀ asked ∈ trend, fitsMemory (asked.window + 1) Solver.stepBytes = true) ∧
      ((standing.limit.map (min · most)).getD most = 0 ∨
        fitsMemory standing.diagrams.slots Solver.sumBytes = true)
  | rounding _ => fitsMemory standing.diagrams.slots Solver.countBytes = true
  | _ => standing.intact = true

/-- Failures that are no one's fault: one that was set up, and those that replays and rounding have
of their own. -/
def Admits (failure : Option Routine) (request : Request α β) : EngineError → Prop
  | .injected routine => failure = some routine
  | .inconsistentReplay .. => request.routine = .gradIterations
  | .noAgreement _ => request.routine = .rounding
  | _ => False

/-- Why a solver of this standing may fail to serve the request. -/
def Excuses (standing : Standing) (request : Request α β) (e : EngineError) : Prop :=
  (∃ cause, e = .misuse cause) ∧ ¬request.Affordable standing ∨ request.Admits standing.failure e

end Request

namespace Solver

/-- The procedure fails in the solver's state for this reason if at all. -/
def FailsOnly (reason : EngineError → Prop) (s : Solver α) (work : Work α β) : Prop :=
  ∀ e, (work.run s).result = .error e → reason e

namespace FailsOnly

variable {reason : EngineError → Prop} {s : Solver α}

theorem of_ok {work : Work α β} {value : β} (ok : (work.run s).result = .ok value) :
    FailsOnly reason s work := by
  intro e failed
  cases ok.symm.trans failed

theorem lift_bind {γ : Type} {check : Except EngineError γ} {next : γ → Work α β}
    (first : ∀ e, check = .error e → reason e)
    (rest : ∀ value, check = .ok value → FailsOnly reason s (next value)) :
    FailsOnly reason s (lift check >>= next) := by
  intro e failed
  cases checked : check with
  | error e' =>
      rw [checked] at failed
      cases failed
      exact first e checked
  | ok value =>
      rw [checked] at failed
      exact rest value checked e failed

end FailsOnly

section Checks

variable {reason : EngineError → Prop} {s : Solver α} {e : EngineError}

theorem room_of_eq {name : String} {actual expected : Nat} (same : actual = expected)
    (failed : room name actual expected = .error e) : reason e := by
  rw [room, if_pos same] at failed
  cases failed

theorem segment_of_size {γ : Type} {name : String} {values : Array γ} {n : Nat}
    (sized : values.size = n) (failed : segment name values n = .error e) : reason e := by
  rw [segment, dif_pos sized] at failed
  cases failed

theorem dampingSegment_of_sized {name : String} {damping : Damping α (Array α)} {n : Nat}
    (sized : damping.Sized n) (failed : dampingSegment name damping n = .error e) : reason e := by
  cases damping with
  | shared value => cases failed
  | perLayer factors =>
      have long : factors.size = n := sized
      rw [dampingSegment, segment, dif_pos long] at failed
      cases failed

end Checks

variable [Scalar α] [Zero α] [Add α] [Sub α] [Mul α] [Neg α] {s : Solver α}

/-- A solver that serves a request keeps its standing. -/
theorem standing_of_serve {request : Request α β} {value : β}
    (ok : ((serve request).run s).result = .ok value) :
    ((serve request).run s).state.standing = s.standing := by
  by_cases silent : request.routine.enters = false
  · exact fixes_serve (fun _ _ => rfl) silent s
  cases request with
  | iterations weights most damping slope trend =>
      rcases iterate_cases s weights most damping slope trend with
        ⟨-, e, failed⟩ | ⟨-, failed, -⟩ | ⟨_, _, -, -, state, -⟩
      · cases failed.symm.trans ok
      · cases failed.symm.trans ok
      · exact (congrArg standing state).trans rfl
  | gradIterations weights damping gradient window caches =>
      exact fixes_standing_iterateBackward weights damping gradient window caches s
  | _ => exact absurd rfl silent

section Requests

variable {request : Request α β}

omit [Scalar α] [Zero α] [Add α] [Sub α] [Mul α] [Neg α] in
theorem excuses_of_checkFailure {routine : Routine} {e : EngineError}
    (failed : s.checkFailure routine = .error e) : request.Excuses s.standing e := by
  rw [checkFailure] at failed
  split at failed
  · next fails =>
      cases failed
      exact .inr fails
  · cases failed

omit [Scalar α] [Zero α] [Add α] [Sub α] [Mul α] [Neg α] in
theorem excuses_of_checkIntact {e : EngineError}
    (needed : request.Affordable s.standing → s.intact = true)
    (failed : s.checkIntact = .error e) : request.Excuses s.standing e := by
  rw [checkIntact] at failed
  split at failed
  · cases failed
  · next lost =>
      cases failed
      exact .inl ⟨⟨_, rfl⟩, fun affordable => lost (needed affordable)⟩

theorem failsOnly_iterate {weights : Array α} (weighed : weights.size = s.layers) {most : Nat}
    {damping : Damping α (Array α)} (damped : damping.Sized s.layers) (slope : α)
    {trend : Option (TrendRequest α)}
    (roomy : ∀ asked ∈ trend, asked.room = ⟨s.layers, s.bdds, s.bdds⟩) :
    FailsOnly ((Request.iterations weights most damping slope trend).Excuses s.standing) s
      (iterate weights most damping slope trend) := by
  intro e failed
  have iterated := failed
  rw [← toArray_fit weighed, ← damped.map_fit] at iterated
  cases checked : s.checkTrend trend with
  | error e' =>
      simp only [iterate_eq, run_read_bind, segment_toArray, dampingSegment_map_toArray,
        run_lift_ok_bind, checked] at iterated
      cases iterated
      cases trend with
      | none => cases checked
      | some asked =>
          simp only [checkTrend, roomy asked rfl, room, if_true, ok_bind] at checked
          split at checked
          · exact excuses_of_checkIntact And.left checked
          · next unfit =>
              cases checked
              exact .inl ⟨⟨_, rfl⟩, fun affordable => unfit (affordable.2.1 asked rfl)⟩
  | ok _ =>
      rcases fits_or_unfit s most with fits | ⟨busy, unfit⟩
      · cases (yields_iterate _ _ slope checked fits).result.symm.trans iterated
      · cases (iterate_of_unfit _ _ slope checked ⟨busy, unfit⟩).2.symm.trans iterated
        refine .inl ⟨⟨_, rfl⟩, fun affordable => affordable.2.2.elim busy fun fits => ?_⟩
        cases unfit.symm.trans fits

/-- A request that suits the solver fails only with an excuse. -/
theorem failsOnly_serve (suits : request.Suits s.diagrams) :
    FailsOnly (request.Excuses s.standing) s (serve request) := by
  cases request with
  | setCosts costs =>
      rw [serve_setCosts, bindCosts]
      exact .lift_bind (fun _ => segment_of_size suits.lo) fun _ _ =>
        .lift_bind (fun _ => segment_of_size suits.hi) fun _ _ =>
        .lift_bind (fun _ => segment_of_size suits.deferred) fun _ _ =>
        .lift_bind (fun _ => excuses_of_checkIntact id) fun _ _ => .of_ok rfl
  | costs space =>
      obtain rfl : space = _ := suits
      rw [serve_costs, readCosts_eq]
      exact .lift_bind (fun _ => room_of_eq rfl) fun _ _ =>
        .lift_bind (fun _ => room_of_eq rfl) fun _ _ =>
        .lift_bind (fun _ => room_of_eq rfl) fun _ _ =>
        .lift_bind (fun _ => excuses_of_checkIntact id) fun _ _ => .of_ok rfl
  | iterations weights most damping slope trend =>
      obtain ⟨weighed, damped, roomy⟩ := suits
      exact failsOnly_iterate weighed damped slope roomy
  | gradIterations weights damping gradient window caches =>
      obtain ⟨weighed, damped, sized⟩ := suits
      rw [serve_gradIterations, iterateBackward_eq]
      refine .lift_bind (fun _ => segment_of_size weighed) fun _ _ =>
        .lift_bind (fun _ => segment_of_size sized.costs.lo) fun _ _ =>
        .lift_bind (fun _ => segment_of_size sized.costs.hi) fun _ _ =>
        .lift_bind (fun _ => segment_of_size sized.costs.deferred) fun _ _ =>
        .lift_bind (fun _ => segment_of_size sized.weights) fun _ _ =>
        .lift_bind (fun _ => dampingSegment_of_sized damped) fun _ _ =>
        .lift_bind (fun _ => dampingSegment_of_sized sized.damping) fun _ _ => ?_
      dsimp only
      split
      · intro e failed
        cases failed
        exact .inr rfl
      · exact .of_ok rfl
  | distributeDelta =>
      rw [serve_distributeDelta, distribute]
      exact .lift_bind (fun _ => excuses_of_checkFailure) fun _ _ => .of_ok rfl
  | gradDistributeDelta gradient space =>
      rw [serve_gradDistributeDelta, distributeBackward_eq]
      exact .lift_bind (fun _ => segment_of_size suits.1.lo) fun _ _ =>
        .lift_bind (fun _ => segment_of_size suits.1.hi) fun _ _ =>
        .lift_bind (fun _ => room_of_eq suits.2) fun _ _ => .of_ok rfl
  | minMarginals space =>
      rw [serve_minMarginals, minMarginals_eq]
      exact .lift_bind (fun _ => excuses_of_checkFailure) fun _ _ =>
        .lift_bind (fun _ => room_of_eq suits) fun _ _ =>
        .lift_bind (fun _ => excuses_of_checkIntact id) fun _ _ => .of_ok rfl
  | gradMinMarginals gradient space =>
      obtain ⟨sized, rfl⟩ := suits
      rw [serve_gradMinMarginals, minMarginalsBackward_eq]
      exact .lift_bind (fun _ => segment_of_size sized) fun _ _ =>
        .lift_bind (fun _ => room_of_eq rfl) fun _ _ =>
        .lift_bind (fun _ => room_of_eq rfl) fun _ _ => .of_ok rfl
  | perturb change =>
      rw [serve_perturb, perturb]
      exact .lift_bind (fun _ => excuses_of_checkFailure) fun _ _ =>
        .lift_bind (fun _ => segment_of_size suits.lo) fun _ _ =>
        .lift_bind (fun _ => segment_of_size suits.hi) fun _ _ => .of_ok rfl
  | gradPerturb gradient space =>
      obtain ⟨sized, rfl⟩ := suits
      rw [serve_gradPerturb, perturbBackward_eq]
      exact .lift_bind (fun _ => segment_of_size sized.lo) fun _ _ =>
        .lift_bind (fun _ => segment_of_size sized.hi) fun _ _ =>
        .lift_bind (fun _ => room_of_eq rfl) fun _ _ =>
        .lift_bind (fun _ => room_of_eq rfl) fun _ _ => .of_ok rfl
  | lowerBounds space =>
      rw [serve_lowerBounds, lowerBounds_eq]
      exact .lift_bind (fun _ => excuses_of_checkFailure) fun _ _ =>
        .lift_bind (fun _ => room_of_eq suits) fun _ _ =>
        .lift_bind (fun _ => excuses_of_checkIntact id) fun _ _ => .of_ok rfl
  | gradLowerBounds gradient low space =>
      obtain ⟨sized, long, roomy⟩ := suits
      rw [serve_gradLowerBounds, lowerBoundsBackward_eq]
      exact .lift_bind (fun _ => segment_of_size sized) fun _ _ =>
        .lift_bind (fun _ => segment_of_size long) fun _ _ =>
        .lift_bind (fun _ => room_of_eq roomy) fun _ _ =>
        .lift_bind (fun _ => excuses_of_checkIntact id) fun _ _ => .of_ok rfl
  | rounding settings =>
      rw [serve_rounding, round]
      refine .lift_bind (fun _ => excuses_of_checkFailure) fun _ _ =>
        .lift_bind (fun e failed => ?_) fun _ _ => ?_
      · rw [Solver.evenWeights] at failed
        split at failed
        · cases failed
        · next unfit =>
            cases failed
            exact .inl ⟨⟨_, rfl⟩, unfit⟩
      · dsimp only
        split
        · intro e failed
          cases failed
          exact .inr rfl
        · exact .of_ok rfl
  | solution space =>
      rw [serve_solution, solution_eq]
      exact .lift_bind (fun _ => excuses_of_checkFailure) fun _ _ =>
        .lift_bind (fun _ => room_of_eq suits) fun _ _ =>
        .lift_bind (fun _ => excuses_of_checkIntact id) fun _ _ => .of_ok rfl

end Requests

end Solver

end DualAscent
