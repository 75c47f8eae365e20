import DualAscent.Proofs.Procedure
import DualAscent.Solver.Answers

/-!
# Serving a run

A request for dual iterations is refused without a trace, or breaks off for lack of memory, or
puts the costs that the run arrives at and its length on record.
-/

namespace DualAscent.Solver

open Procedure

variable {α : Type}

@[simp]
theorem segment_toArray {β : Type} {n : Nat} (name : String) (values : Vector β n) :
    segment name values.toArray n = .ok values := by
  rw [segment, dif_pos values.size_toArray]

theorem segment_eq_ok_iff {β : Type} {n : Nat} {name : String} {values : Array β}
    {accepted : Vector β n} :
    segment name values n = .ok accepted ↔ accepted.toArray = values := by
  constructor
  · intro ok
    rw [segment] at ok
    split at ok
    · cases ok
      rfl
    · cases ok
  · rintro rfl
    exact segment_toArray name accepted

@[simp]
theorem dampingSegment_map_toArray {n : Nat} (name : String) (damping : Damping α (Vector α n)) :
    dampingSegment name (damping.map Vector.toArray) n = .ok damping := by
  cases damping with
  | shared value => rfl
  | perLayer values =>
      rw [Damping.map, dampingSegment, segment_toArray]
      rfl

theorem dampingSegment_eq_ok_iff {n : Nat} {name : String} {damping : Damping α (Array α)}
    {accepted : Damping α (Vector α n)} :
    dampingSegment name damping n = .ok accepted ↔ accepted.map Vector.toArray = damping := by
  constructor
  · intro ok
    cases damping with
    | shared value =>
        cases ok
        rfl
    | perLayer values =>
        rw [dampingSegment] at ok
        cases read : segment name values n with
        | error e =>
            rw [read] at ok
            cases ok
        | ok vector =>
            rw [read] at ok
            cases ok
            rw [Damping.map, segment_eq_ok_iff.mp read]
  · rintro rfl
    exact dampingSegment_map_toArray name accepted

/-- The dual ascent on the solver's layers. -/
def ascent (s : Solver α) (weights : Vector α s.layers) (damping : Damping α (Vector α s.layers)) :
    Ascent α s.slots s.layers :=
  ⟨s.diagrams.slotOf, weights, damping⟩

/-- The most iterations that a run of the solver makes. -/
def cap (s : Solver α) (most : Nat) : Nat := (s.limit.map (min · most)).getD most

theorem fits_or_unfit (s : Solver α) (most : Nat) :
    (s.cap most = 0 ∨ fitsMemory s.slots sumBytes = true) ∨
      (s.cap most ≠ 0 ∧ fitsMemory s.slots sumBytes = false) := by
  by_cases idle : s.cap most = 0
  · exact .inl (.inl idle)
  · cases room : fitsMemory s.slots sumBytes with
    | true => exact .inl (.inr rfl)
    | false => exact .inr ⟨idle, rfl⟩

theorem run_reserveSums_of_unfit [Zero α] {steps : Nat} {s : Solver α}
    (unfit : steps ≠ 0 ∧ fitsMemory s.slots sumBytes = false) :
    (reserveSums steps).run s = ⟨[], s.torn, .error (.misuse .outOfMemory)⟩ := by
  rw [reserveSums, run_read_bind, if_pos unfit, run_write_bind, run_fail]

variable [Scalar α] [Zero α] [Add α] [Sub α] [Mul α] [Neg α]

/-- Where a run of the solver ends, with the improvement that stopped it early. -/
def finish (s : Solver α) (weights : Vector α s.layers) (most : Nat)
    (damping : Damping α (Vector α s.layers)) (slope : α) (trend : Option (TrendRequest α)) :
    Progress α s.layers × Option α :=
  (s.ascent weights damping).run ⟨slope, (trend.map (·.window)).getD 0⟩ (s.cap most)
    (Progress.start s.costs)

/-- Without memory for the sums a run breaks off. -/
theorem iterate_of_unfit {s : Solver α} (weights : Vector α s.layers) {most : Nat}
    (damping : Damping α (Vector α s.layers)) (slope : α) {trend : Option (TrendRequest α)}
    (roomy : s.checkTrend trend = .ok ())
    (unfit : s.cap most ≠ 0 ∧ fitsMemory s.slots sumBytes = false) :
    let outcome := (iterate weights.toArray most (damping.map Vector.toArray) slope trend).run s
    outcome.state = s.torn ∧ outcome.result = .error (.misuse .outOfMemory) := by
  simp only [iterate_eq, run_read_bind, segment_toArray, dampingSegment_map_toArray,
    run_lift_ok_bind, roomy]
  have broken : (reserveSums ((s.limit.map (min · most)).getD most)).run s = _ :=
    run_reserveSums_of_unfit unfit
  rw [run_bind_of_error (congrArg Outcome.result broken), broken]
  exact ⟨rfl, rfl⟩

/-- With memory for the sums a run is put on record. -/
theorem yields_iterate {s : Solver α} (weights : Vector α s.layers) {most : Nat}
    (damping : Damping α (Vector α s.layers)) (slope : α) {trend : Option (TrendRequest α)}
    (roomy : s.checkTrend trend = .ok ())
    (fits : s.cap most = 0 ∨ fitsMemory s.slots sumBytes = true) :
    let finish := (s.finish weights most damping slope trend).1
    (iterate weights.toArray most (damping.map Vector.toArray) slope trend).Yields s
      { s with costs := finish.current, pending := finish.steps :: s.pending }
      ⟨finish.steps, trend.map fun request =>
        finish.trend request.window s.diagrams.chainOf request.decay⟩ := by
  have quiet : (reserveSums ((s.limit.map (min · most)).getD most)).run s = _ :=
    run_reserveSums_of_fits fits
  have finished : ∀ outcome,
      (iterate weights.toArray most (damping.map Vector.toArray) slope trend).run s = outcome →
      let finish := (s.finish weights most damping slope trend).1
      outcome.state = { s with costs := finish.current, pending := finish.steps :: s.pending } ∧
        outcome.result = .ok ⟨finish.steps, trend.map fun request =>
          finish.trend request.window s.diagrams.chainOf request.decay⟩ := by
    rintro _ rfl
    simp only [iterate_eq, run_read_bind, segment_toArray, dampingSegment_map_toArray,
      run_lift_ok_bind, roomy]
    rw [run_bind_of_ok (congrArg Outcome.result quiet), quiet]
    dsimp only [finish, ascent, cap]
    split
    · exact ⟨rfl, rfl⟩
    · exact ⟨rfl, rfl⟩
  exact ⟨(finished _ rfl).1, (finished _ rfl).2⟩

/-- Once all segments are accepted, a run breaks off or is put on record. -/
theorem iterate_accepted {s : Solver α} (weights : Vector α s.layers) (most : Nat)
    (damping : Damping α (Vector α s.layers)) (slope : α) {trend : Option (TrendRequest α)}
    (roomy : s.checkTrend trend = .ok ()) :
    let outcome := (iterate weights.toArray most (damping.map Vector.toArray) slope trend).run s
    (outcome.state = s.torn ∧ outcome.result = .error (.misuse .outOfMemory) ∧
        s.cap most ≠ 0 ∧ fitsMemory s.slots sumBytes = false) ∨
      let finish := (s.finish weights most damping slope trend).1
      outcome.state = { s with costs := finish.current, pending := finish.steps :: s.pending } ∧
        outcome.result = .ok ⟨finish.steps, trend.map fun request =>
          finish.trend request.window s.diagrams.chainOf request.decay⟩ := by
  rcases fits_or_unfit s most with fits | unfit
  · have finished := yields_iterate weights damping slope roomy fits
    exact .inr ⟨finished.state, finished.result⟩
  · obtain ⟨broken, failed⟩ := iterate_of_unfit weights damping slope roomy unfit
    exact .inl ⟨broken, failed, unfit⟩

/-- A run that is put on record had the memory it needs. -/
theorem fits_of_iterate {s : Solver α} {weights : Array α} {most : Nat}
    {damping : Damping α (Array α)} {slope : α} {trend : Option (TrendRequest α)}
    {realized : Realized α}
    (ok : ((iterate weights most damping slope trend).run s).result = .ok realized) :
    s.checkTrend trend = .ok () ∧ (s.cap most = 0 ∨ fitsMemory s.slots sumBytes = true) := by
  have read := ok
  rw [iterate_eq, run_read_bind] at read
  obtain ⟨weights', weightsRead, read⟩ := result_lift_bind_eq_ok_iff.mp read
  obtain ⟨damping', dampingRead, read⟩ := result_lift_bind_eq_ok_iff.mp read
  obtain ⟨_, roomy, -⟩ := result_lift_bind_eq_ok_iff.mp read
  obtain rfl := segment_eq_ok_iff.mp weightsRead
  obtain rfl := dampingSegment_eq_ok_iff.mp dampingRead
  refine ⟨roomy, (fits_or_unfit s most).resolve_right fun unfit => ?_⟩
  cases (iterate_of_unfit weights' damping' slope roomy unfit).2.symm.trans ok

/-- A request for dual iterations fails without a trace, breaks off, or is put on record. -/
theorem iterate_cases (s : Solver α) (weights : Array α) (most : Nat)
    (damping : Damping α (Array α)) (slope : α) (trend : Option (TrendRequest α)) :
    let outcome := (iterate weights most damping slope trend).run s
    (outcome.state = s ∧ ∃ e, outcome.result = .error e) ∨
      (outcome.state = s.torn ∧ outcome.result = .error (.misuse .outOfMemory) ∧
        s.cap most ≠ 0 ∧ fitsMemory s.slots sumBytes = false) ∨
      ∃ (weights' : Vector α s.layers) (damping' : Damping α (Vector α s.layers)),
        weights'.toArray = weights ∧ damping'.map Vector.toArray = damping ∧
          let finish := (s.finish weights' most damping' slope trend).1
          outcome.state = { s with costs := finish.current, pending := finish.steps :: s.pending } ∧
            outcome.result = .ok ⟨finish.steps, trend.map fun request =>
              finish.trend request.window s.diagrams.chainOf request.decay⟩ := by
  cases weightsRead : segment "dist_weights" weights s.layers with
  | error e =>
      rw [iterate_eq, run_read_bind, weightsRead]
      exact .inl ⟨rfl, e, rfl⟩
  | ok weights' =>
      cases dampingRead : dampingSegment "omega" damping s.layers with
      | error e =>
          rw [iterate_eq, run_read_bind, weightsRead, dampingRead]
          exact .inl ⟨rfl, e, rfl⟩
      | ok damping' =>
          cases roomy : s.checkTrend trend with
          | error e =>
              rw [iterate_eq, run_read_bind, weightsRead, dampingRead, roomy]
              exact .inl ⟨rfl, e, rfl⟩
          | ok _ =>
              obtain rfl := segment_eq_ok_iff.mp weightsRead
              obtain rfl := dampingSegment_eq_ok_iff.mp dampingRead
              rcases iterate_accepted weights' most damping' slope roomy with broken | finished
              · exact .inr (.inl broken)
              · exact .inr (.inr ⟨weights', damping', rfl, rfl, finished⟩)

end DualAscent.Solver
