import DualAscent.Proofs.Solver.Standing

/-!
# What readings of the costs see

Bounds, min-marginal differences and branch choices see no more of the working costs than what
either branch of every layer costs.  In exact arithmetic that stays the same when the deferred
min-marginals move into the costs of the high branches.
-/

namespace DualAscent

open Procedure

/-- The working costs are read and stay as they are. -/
def Routine.reads (routine : Routine) : Bool :=
  routine = .lowerBounds ∨ routine = .minMarginals ∨ routine = .solution

namespace Costs

variable {α : Type} {n : Nat} [Add α]

/-- Either branch of every layer costs the same. -/
structure SamePrices (c c' : Costs (Vector α n)) : Prop where
  low : c.lo = c'.lo
  high : ∀ l, c.highCost l = c'.highCost l

namespace SamePrices

variable {c c' : Costs (Vector α n)} (same : c.SamePrices c')

include same

theorem margins [Sub α] : c.margins = c'.margins := by
  refine ext_get fun l => ?_
  rw [get_margins, get_margins, same.high, same.low]

variable [Scalar α]

theorem branchMinima : c.branchMinima = c'.branchMinima := by
  refine ext_get fun l => ?_
  rw [get_branchMinima, get_branchMinima, same.high, same.low]

theorem solution [Zero α] : c.solution = c'.solution := by
  refine ext_get fun l => ?_
  rw [get_solution, get_solution, takesHigh, takesHigh, same.high, same.low]

theorem boundsBy [Zero α] {chains : Nat} (chainOf : Vector (Fin chains) n) :
    c.boundsBy chainOf = c'.boundsBy chainOf := by
  rw [Costs.boundsBy, Costs.boundsBy, same.branchMinima]

end SamePrices

section Exact

variable [Zero α] (exact : ∀ a : α, a + 0 = a)

include exact

theorem highCost_distribute (c : Costs (Vector α n)) (l : Fin n) :
    c.distribute.highCost l = c.highCost l := by
  rw [highCost, distribute, get_ofFn, get_replicate, exact]

theorem samePrices_distribute (c : Costs (Vector α n)) : c.distribute.SamePrices c :=
  ⟨rfl, c.highCost_distribute exact⟩

theorem distribute_distribute (c : Costs (Vector α n)) :
    c.distribute.distribute = c.distribute := by
  have high : c.distribute.highCost = c.highCost := funext (c.highCost_distribute exact)
  rw [distribute, high]
  rfl

end Exact

end Costs

namespace Solver

variable {α β : Type} [Add α]

/-- The standing of the solver, and what the low and the high branch of every layer costs. -/
def prices (s : Solver α) : Standing × Array α × Array α :=
  (s.standing, s.costs.lo.toArray, (Vector.ofFn s.costs.highCost).toArray)

theorem prices_eq {s : Solver α} {c c' : Costs (Vector α s.layers)} (same : c.SamePrices c') :
    prices { s with costs := c } = prices { s with costs := c' } := by
  have high : c.highCost = c'.highCost := funext same.high
  rw [prices, prices, same.low, high]
  rfl

theorem exists_of_prices {s s' : Solver α} (same : s.prices = s'.prices) :
    ∃ costs pending replays, s' = { s with costs, pending, replays } ∧
      s.costs.SamePrices costs := by
  obtain ⟨costs, pending, replays, rfl⟩ := exists_of_standing (congrArg Prod.fst same)
  have low := Vector.toArray_inj.mp (congrArg (fun seen => seen.2.1) same)
  have high := Vector.toArray_inj.mp (congrArg (fun seen => seen.2.2) same)
  refine ⟨costs, pending, replays, rfl, low, fun l => ?_⟩
  have entry := congrArg (fun prices => prices.get l) high
  rwa [get_ofFn, get_ofFn] at entry

variable [Scalar α] [Zero α] [Sub α] [Mul α] [Neg α]

/-- A reading sees no more than the prices. -/
theorem agrees_reading {request : Request α β} (reads : request.routine.reads = true) :
    Agrees prices unseen (serve request) := by
  intro s s' seen
  obtain ⟨costs, pending, replays, rfl, same⟩ := exists_of_prices seen
  cases request with
  | lowerBounds space =>
      rw [serve_lowerBounds, lowerBounds_eq, run_read_bind, run_read_bind]
      repeat refine agree_lift_bind fun _ => ?_
      rw [same.boundsBy]
      exact ⟨rfl, fun _ _ => rfl⟩
  | minMarginals space =>
      rw [serve_minMarginals, minMarginals_eq, run_read_bind, run_read_bind]
      repeat refine agree_lift_bind fun _ => ?_
      rw [same.margins]
      exact ⟨rfl, fun _ _ => rfl⟩
  | solution space =>
      rw [serve_solution, solution_eq, run_read_bind, run_read_bind]
      repeat refine agree_lift_bind fun _ => ?_
      rw [same.solution]
      exact ⟨rfl, fun _ _ => rfl⟩
  | _ => cases reads

end Solver

end DualAscent
