import DualAscent.Proofs.Diagrams
import DualAscent.Proofs.Solver.EarlyStop
import DualAscent.Proofs.Solver.Served
import DualAscent.Proofs.Solver.Standing

/-!
# What a solver keeps

No call changes what a solver was made of, and one that fails leaves the solver and the slices lent
for it as they were, but for the costs that rounding arrived at.  The costs can be copied at any
time, unless a run broke off for lack of memory and took the deferred min-marginals along.
-/

namespace DualAscent

open Procedure

namespace Solver

variable {α δ β : Type}

theorem standing_enter (s : Solver α) (costs : Costs (Vector α s.layers)) (entry : Option Entry) :
    (enter { s with costs } entry).standing = s.standing := by
  cases entry with
  | none => rfl
  | some entry => cases entry <;> rfl

variable [Scalar α] [Zero α] [Add α] [Sub α] [Mul α] [Neg α]

/-- The call is for a run that breaks off: there is no memory for its sums, and it takes the
deferred min-marginals along. -/
structure BreaksOff (s : Solver α) (called : AnyCall α) : Prop where
  runs : called.invocation.routine = .iterations
  unfit : fitsMemory s.slots sumBytes = false
  failed : ((call called.invocation).run ⟨s, called.slices⟩).result =
    .error (.misuse .outOfMemory)
  reached : ((call called.invocation).run ⟨s, called.slices⟩).state = ⟨s.torn, called.slices⟩

/-- A call that does not break off changes nothing but costs and account. -/
theorem standing_next (s : Solver α) (called : AnyCall α) :
    (s.next called).standing = s.standing ∨
      (s.next called).make = s.make ∧ s.BreaksOff called := by
  obtain ⟨invocation, slices⟩ := called
  rw [next]
  cases result : ((call invocation).run ⟨s, slices⟩).result with
  | ok value =>
      obtain ⟨costs, reached⟩ := state_of_ok result
      left
      rw [reached, standing_enter]
  | error e =>
      rcases state_of_error result with untouched | ⟨-, -, costs, gaveUp⟩ |
        ⟨runs, rfl, unfit, brokeOff⟩ | ⟨-, -, -, branches, written, half⟩
      · left
        rw [untouched]
      · left
        rw [gaveUp]
        rfl
      · right
        rw [brokeOff]
        exact ⟨rfl, runs, unfit, result, brokeOff⟩
      · left
        rw [half]
        rfl

theorem make_afterAll (s : Solver α) (calls : List (AnyCall α)) :
    (s.afterAll calls).make = s.make := by
  induction calls generalizing s with
  | nil => rfl
  | cons called calls ih =>
      refine (ih (s.next called)).trans ?_
      rcases standing_next s called with kept | ⟨kept, -⟩
      · exact congrArg Standing.toMake kept
      · exact kept

/-- The deferred min-marginals stay in place, unless some call breaks off. -/
theorem intact_afterAll {s : Solver α} (intact : s.intact = true) (calls : List (AnyCall α)) :
    (s.afterAll calls).intact = true ∨
      ∃ before called after, calls = before ++ called :: after ∧
        (s.afterAll before).BreaksOff called := by
  induction calls generalizing s with
  | nil => exact .inl intact
  | cons called calls ih =>
      rcases standing_next s called with kept | ⟨-, broken⟩
      · rcases ih ((congrArg Standing.intact kept).trans intact) with whole |
          ⟨before, called', after, rfl, broken⟩
        · exact .inl whole
        · exact .inr ⟨called :: before, called', after, rfl, broken⟩
      · exact .inr ⟨[], called, calls, rfl, broken⟩

/-- A call adds to the runs that wait only as an answered call for a run, and takes from them only
as an answered replay. -/
theorem pending_cases (s : Solver α) (slices : δ) (invocation : Invocation α δ β) :
    let outcome := (call invocation).run ⟨s, slices⟩
    let reached := outcome.state.engine
    reached.pending = s.pending ∨ ∃ value, outcome.result = .ok value ∧
      ((invocation.routine = .iterations ∧ ∃ steps, reached.pending = steps :: s.pending) ∨
        (invocation.routine = .gradIterations ∧ reached.pending = s.pending.tail)) := by
  intro outcome reached
  cases result : outcome.result with
  | error e => exact .inl (record_of_error result).1
  | ok value =>
      obtain ⟨costs, entered⟩ := state_of_ok result
      have pending : reached.pending = _ := congrArg Solver.pending entered
      rw [pending]
      cases entry : invocation.entry? value with
      | none => exact .inl rfl
      | some entry' =>
          cases entry' with
          | run steps =>
              exact .inr ⟨value, rfl, .inl ⟨Invocation.routine_of_run entry, steps, rfl⟩⟩
          | replay window caches =>
              exact .inr ⟨value, rfl, .inr ⟨Invocation.routine_of_replay entry, rfl⟩⟩

/-- Costs that are in place can be copied to slices of their length. -/
theorem run_costs_of_sized {s : Solver α} (intact : s.intact = true) {slices : Costs (Array α)}
    (sized : slices.Sized s.layers) :
    (call .costs).run (Lent.mk s slices) = ⟨[], ⟨s, s.costs.map Vector.toArray⟩, .ok ()⟩ := by
  simp only [call, costsInto, run_read_bind, room, sized.lo, sized.hi, sized.deferred, if_true,
    run_lift_ok_bind, checkIntact, intact]
  rfl

/-- A call that returns an error leaves the slices lent for it as they were, and the solver as well,
but for the costs that rounding arrived at. -/
theorem atomic_of_error {s : Solver α} {slices : δ} {invocation : Invocation α δ β}
    {e : EngineError} (failed : ((call invocation).run ⟨s, slices⟩).result = .error e)
    (returns : ∀ cause, e ≠ .misuse cause) :
    let reached := ((call invocation).run ⟨s, slices⟩).state
    reached.slices = slices ∧ (reached.engine = s ∨ (invocation.routine = .rounding ∧
      e = .noAgreement mostRounds ∧ ∃ costs, reached.engine = { s with costs })) := by
  rcases state_of_error failed with untouched | ⟨rounds, gaveUp, costs, reached⟩ |
    ⟨-, broken, -⟩ | ⟨-, broken, -⟩
  · rw [untouched]
    exact ⟨rfl, .inl rfl⟩
  · rw [reached]
    exact ⟨rfl, .inr ⟨rounds, gaveUp, costs, rfl⟩⟩
  · exact absurd broken (returns _)
  · exact absurd broken (returns _)

/-- A call that violates a precondition leaves everything as it was, or it is for a run that breaks
off, or the deferred min-marginals were lost before and costs are bound or copied by half. -/
theorem broken_of_misuse {s : Solver α} {slices : δ} {invocation : Invocation α δ β}
    {cause : Misuse}
    (failed : ((call invocation).run ⟨s, slices⟩).result = .error (.misuse cause)) :
    ((call invocation).run ⟨s, slices⟩).state = ⟨s, slices⟩ ∨ s.BreaksOff ⟨invocation, slices⟩ ∨
      (s.intact = false ∧ (invocation.routine = .setCosts ∨ invocation.routine = .costs)) := by
  rcases state_of_error failed with untouched | ⟨-, gaveUp, -⟩ | ⟨runs, same, unfit, reached⟩ |
    ⟨halves, -, lost, -⟩
  · exact .inl untouched
  · cases gaveUp
  · exact .inr (.inl ⟨runs, unfit, same ▸ failed, reached⟩)
  · exact .inr (.inr ⟨lost, halves⟩)

/-- Whatever is called on a new solver, it keeps its diagrams, in which the layers of every chain
follow each other up to one terminal layer, and costs for all layers can be copied, unless a run
broke off.  A call that returns an error leaves all slices lent for it and the solver as they were,
but for the costs after rounding that gives up.  A call that violates a precondition does so, too,
but for a run that breaks off, and but for costs bound or copied by half after that.  Only an
answered run waits for its gradient, and only an answered replay ends that. -/
theorem afterAll_keeps (d : Diagrams) (limit : Option Nat) (failure : Option Routine)
    (calls : List (AnyCall α)) :
    let start : Solver α := ofDiagrams d limit failure
    let s := start.afterAll calls
    (s.make = ⟨d, limit, failure⟩ ∧ Engine.sizes s = d.sizes ∧
        (∀ l, (d.slotOf.get l).val ≤ d.primals ∧ (d.chainOf.get l).val < d.bdds) ∧
        ∀ chain : Fin d.bdds, d.Spans chain (d.offset chain) (d.offset (chain + 1))) ∧
      ((∀ slices : Costs (Array α), slices.Sized d.layers →
          let copied := (call .costs).run ⟨s, slices⟩
          copied.result = .ok () ∧ copied.state.slices.Sized d.layers) ∨
        ∃ before called after, calls = before ++ called :: after ∧
          (start.afterAll before).BreaksOff called) ∧
      ∀ {δ β : Type} (invocation : Invocation α δ β) (slices : δ),
        let outcome := (call invocation).run ⟨s, slices⟩
        let reached := outcome.state.engine
        (∀ e, outcome.result = .error e → (∀ cause, e ≠ .misuse cause) →
          outcome.state.slices = slices ∧ (reached = s ∨ (invocation.routine = .rounding ∧
            e = .noAgreement mostRounds ∧ ∃ costs, reached = { s with costs }))) ∧
        (∀ cause, outcome.result = .error (.misuse cause) →
          outcome.state = ⟨s, slices⟩ ∨ s.BreaksOff ⟨invocation, slices⟩ ∨
            (s.intact = false ∧
              (invocation.routine = .setCosts ∨ invocation.routine = .costs))) ∧
        (reached.pending = s.pending ∨ ∃ value, outcome.result = .ok value ∧
          ((invocation.routine = .iterations ∧ ∃ steps, reached.pending = steps :: s.pending) ∨
            (invocation.routine = .gradIterations ∧ reached.pending = s.pending.tail))) := by
  intro start s
  have made : s.make = ⟨d, limit, failure⟩ := make_afterAll start calls
  have diagrams : s.diagrams = d := congrArg Make.diagrams made
  refine ⟨⟨made, congrArg Diagrams.sizes diagrams, fun l => ?_, d.spans_offset⟩, ?_,
    fun invocation slices => ⟨fun e failed returns => atomic_of_error failed returns,
      fun cause failed => broken_of_misuse failed, s.pending_cases slices invocation⟩⟩
  · exact ⟨Nat.le_of_lt_succ (d.slotOf.get l).isLt, (d.chainOf.get l).isLt⟩
  · refine (intact_afterAll (s := start) rfl calls).imp_left fun intact slices sized => ?_
    have long : d.layers = s.layers := congrArg Diagrams.layers diagrams.symm
    rw [long] at sized ⊢
    rw [run_costs_of_sized intact sized]
    exact ⟨rfl, s.costs.sized_toArray⟩

/-- The call for one step. -/
def oneStep : AnyCall ℚ := ⟨.iterations #[0, 0] 1 (.shared 0) 0, none⟩

/-- After a run that breaks off, the costs of both layers cannot be copied any more. -/
theorem unsummable_loses_costs :
    let s := unsummable.afterAll [oneStep]
    let slices : Costs (Array ℚ) := ⟨⟨#[0, 0], #[0, 0]⟩, #[0, 0]⟩
    s.layers = 2 ∧ ((call .costs).run ⟨s, slices⟩).result ≠ .ok () := by
  intro s slices
  have failed : ((call .costs).run ⟨s, slices⟩).result.toOption = none := by decide +kernel
  refine ⟨by decide +kernel, fun ok => ?_⟩
  rw [ok] at failed
  cases failed

end Solver

end DualAscent
