import DualAscent.Proofs.Sized
import DualAscent.Proofs.Solver.Replay

/-!
# Answers fill their room

A solver answers only if the room set aside for the answer has the length of its segments.  The
answer then has that length, too.
-/

namespace DualAscent.Solver

open Procedure

variable {α : Type} {s : Solver α} {n : Nat}

theorem room_eq_ok_iff {name : String} {actual expected : Nat} :
    room name actual expected = .ok () ↔ actual = expected := by
  rw [room]
  split
  · next same => simp [same]
  · next differs => simp [differs]

theorem sized_of_readCosts [Zero α] {costs : Costs (Array α)}
    (ok : ((readCosts ⟨⟨n, n⟩, n⟩).run s).result = .ok costs) : costs.Sized n := by
  simp only [readCosts_eq, run_read_bind, result_lift_bind_eq_ok_iff] at ok
  obtain ⟨_, long, _, -, _, -, _, -, ok⟩ := ok
  obtain rfl := room_eq_ok_iff.mp long
  cases ok
  exact s.costs.sized_toArray

theorem size_of_distributeBackward [Zero α] {gradient : Branches (Array α)} {values : Array α}
    (ok : ((distributeBackward gradient n).run s).result = .ok values) : values.size = n := by
  simp only [distributeBackward_eq, run_read_bind, result_lift_bind_eq_ok_iff] at ok
  obtain ⟨_, -, _, -, _, long, ok⟩ := ok
  obtain rfl := room_eq_ok_iff.mp long
  cases ok
  exact Vector.size_toArray _

theorem size_of_minMarginals [Zero α] [Add α] [Sub α] {values : Array α}
    (ok : ((minMarginals n).run s).result = .ok values) : values.size = n := by
  simp only [minMarginals_eq, run_read_bind, result_lift_bind_eq_ok_iff] at ok
  obtain ⟨_, -, _, long, _, -, ok⟩ := ok
  obtain rfl := room_eq_ok_iff.mp long
  cases ok
  exact Vector.size_toArray _

theorem sized_of_minMarginalsBackward [Zero α] [Neg α] {gradient : Array α}
    {branches : Branches (Array α)}
    (ok : ((minMarginalsBackward gradient ⟨n, n⟩).run s).result = .ok branches) :
    branches.Sized n := by
  simp only [minMarginalsBackward_eq, run_read_bind, result_lift_bind_eq_ok_iff] at ok
  obtain ⟨_, -, _, long, _, -, ok⟩ := ok
  obtain rfl := room_eq_ok_iff.mp long
  cases ok
  exact ⟨Vector.size_toArray _, Vector.size_toArray _⟩

theorem sized_of_perturbBackward [Zero α] [Add α] {gradient branches : Branches (Array α)}
    (ok : ((perturbBackward gradient ⟨n, n⟩).run s).result = .ok branches) : branches.Sized n := by
  simp only [perturbBackward_eq, run_read_bind, result_lift_bind_eq_ok_iff] at ok
  obtain ⟨_, -, _, -, _, long, _, -, ok⟩ := ok
  obtain rfl := room_eq_ok_iff.mp long
  cases ok
  exact ⟨Vector.size_toArray _, Vector.size_toArray _⟩

section Bounds

variable [Scalar α] [Zero α] [Add α]

theorem size_of_lowerBounds {values : Array α}
    (ok : ((lowerBounds n).run s).result = .ok values) : values.size = n := by
  simp only [lowerBounds_eq, run_read_bind, result_lift_bind_eq_ok_iff] at ok
  obtain ⟨_, -, _, long, _, -, ok⟩ := ok
  obtain rfl := room_eq_ok_iff.mp long
  cases ok
  exact Vector.size_toArray _

theorem sized_of_lowerBoundsBackward {gradient low : Array α} {branches : Branches (Array α)}
    (ok : ((lowerBoundsBackward gradient low n).run s).result = .ok branches) :
    branches.Sized n := by
  simp only [lowerBoundsBackward_eq, run_read_bind, result_lift_bind_eq_ok_iff] at ok
  obtain ⟨_, -, _, -, _, long, _, -, ok⟩ := ok
  obtain rfl := room_eq_ok_iff.mp long
  cases ok
  exact ⟨Array.size_ofFn, Array.size_ofFn⟩

theorem size_of_solution {values : Array α}
    (ok : ((solution n).run s).result = .ok values) : values.size = n := by
  simp only [solution_eq, run_read_bind, result_lift_bind_eq_ok_iff] at ok
  obtain ⟨_, -, _, long, _, -, ok⟩ := ok
  obtain rfl := room_eq_ok_iff.mp long
  cases ok
  exact Vector.size_toArray _

end Bounds

section Run

variable [Scalar α] [Zero α] [Add α] [Sub α] [Mul α] [Neg α]

theorem sized_of_iterate {weights : Array α} {most : Nat} {damping : Damping α (Array α)}
    {slope : α} {trend : Option (TrendRequest α)} {realized : Realized α}
    (ok : ((iterate weights most damping slope trend).run s).result = .ok realized) :
    realized.trend.isSome = trend.isSome ∧
      ∀ request ∈ trend, ∀ summary ∈ realized.trend, Trend.Sized request.room summary := by
  have roomy : s.checkTrend trend = .ok () := by
    rw [iterate_eq, run_read_bind] at ok
    obtain ⟨_, -, ok⟩ := result_lift_bind_eq_ok_iff.mp ok
    obtain ⟨_, -, ok⟩ := result_lift_bind_eq_ok_iff.mp ok
    obtain ⟨_, roomy, -⟩ := result_lift_bind_eq_ok_iff.mp ok
    exact roomy
  rcases iterate_cases s weights most damping slope trend with
    ⟨-, e, failed⟩ | ⟨-, failed, -⟩ | ⟨weights', damping', -, -, -, finished⟩
  · cases failed.symm.trans ok
  · cases failed.symm.trans ok
  · cases finished.symm.trans ok
    refine ⟨Option.isSome_map, fun request requested summary inside => ?_⟩
    obtain rfl : trend = some request := requested
    cases inside
    obtain ⟨_, average, rest⟩ := bind_eq_ok_iff.mp roomy
    obtain ⟨_, first, rest⟩ := bind_eq_ok_iff.mp rest
    obtain ⟨_, second, -⟩ := bind_eq_ok_iff.mp rest
    rw [room_eq_ok_iff] at average first second
    exact ⟨(Vector.size_toArray _).trans average.symm, Array.size_ofFn.trans first.symm,
      Array.size_ofFn.trans second.symm⟩

theorem sized_of_gradIterations {weights : Array α} {damping : Damping α (Array α)}
    {gradient swept : Inputs α (Array α)} {window : ReplayWindow} {caches : Nat}
    (ok : ((serve (.gradIterations weights damping gradient window caches)).run s).result =
      .ok swept) :
    swept.Sized gradient.weights.size ∧ swept.damping.Matches gradient.damping := by
  rcases iterateBackward_cases s weights damping gradient window caches with
    ⟨-, e, failed⟩ | ⟨weights', damping', gradient', -, -, rfl, -, yields⟩
  · cases failed.symm.trans ok
  · cases yields.result.symm.trans ok
    constructor
    · rw [Inputs.map, Vector.size_toArray]
      exact Inputs.sized_toArray _
    · refine (Damping.matches_map _ _).symm.trans (matches_swept s _ window caches gradient' ?_)
      exact Damping.matches_map gradient'.damping Vector.toArray

end Run

end DualAscent.Solver
