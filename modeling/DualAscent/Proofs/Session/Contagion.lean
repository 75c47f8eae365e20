import DualAscent.Proofs.Operation.Contagion
import DualAscent.Proofs.Session.Records

/-!
# No backward pass absorbs what is not finite

In single precision a backward pass that returns has been given finite gradients only, and returns
finite gradients only.
-/

namespace DualAscent

open Procedure Batch

variable {α : Type}

/-- The backward pass of the record takes in this buffer as a gradient of the operation's outputs.
An averaged solution is not differentiable, and its gradient is ignored. -/
def Record.TakesIn (gradients : OutputGradients α) (given : Buffer α) : Record α → Prop
  | .ascent _ => gradients.lo = some given ∨ gradients.hi = some given ∨
      gradients.deferred = some given
  | .redistribution _ => gradients.lo = some given ∨ gradients.hi = some given
  | .minMarginals _ => gradients.values = some given
  | .perturbation _ => gradients.lo = some given ∨ gradients.hi = some given
  | .bounds _ => gradients.values = some given

section Scalar

variable [Scalar α]

/-- All entries of all arrays are finite. -/
def InputGradient.Finite : InputGradient α → Prop
  | .ascent gradient => gradient.costs.Finite ∧ FiniteEntries gradient.weights ∧
      FiniteEntries gradient.damping.toArray
  | .redistribution gradient => gradient.Finite
  | .minMarginals gradient => gradient.Finite
  | .perturbation gradient => gradient.change.Finite ∧ gradient.costs.Finite
  | .bounds gradient => gradient.Finite

namespace Session

variable [Zero α] [Add α] [Sub α] [Mul α] [Neg α] [Contagious α]

theorem finite_of_descend {b : Batch (Solver α)} {record : Record α} (made : record.Made)
    {gradients : OutputGradients α} {answer : InputGradient α}
    (ok : ((descend record gradients).run b).result = .ok answer) :
    answer.Finite ∧ ∀ given, record.TakesIn gradients given → given.nonFinite = 0 := by
  cases record with
  | ascent record =>
      obtain ⟨gradient, returned, rfl⟩ := result_map_eq_ok_iff.mp ok
      obtain ⟨finite, lo, hi, deferred⟩ :=
        Operation.finite_of_ascendBackward made.length_realized returned
      refine ⟨finite, ?_⟩
      rintro given (low | high | later)
      · exact lo given low
      · exact hi given high
      · exact deferred given later
  | redistribution record =>
      obtain ⟨gradient, returned, rfl⟩ := result_map_eq_ok_iff.mp ok
      obtain ⟨finite, lo, hi⟩ := Operation.finite_of_redistributeBackward returned
      refine ⟨finite, ?_⟩
      rintro given (low | high)
      · exact lo given low
      · exact hi given high
  | minMarginals record =>
      obtain ⟨gradient, returned, rfl⟩ := result_map_eq_ok_iff.mp ok
      exact Operation.finite_of_minMarginalsBackward returned
  | perturbation record =>
      obtain ⟨gradient, returned, rfl⟩ := result_map_eq_ok_iff.mp ok
      obtain ⟨change, costs, lo, hi⟩ := Operation.finite_of_perturbBackward returned
      refine ⟨⟨change, costs⟩, ?_⟩
      rintro given (low | high)
      · exact lo given low
      · exact hi given high
  | bounds record =>
      obtain ⟨gradient, returned, rfl⟩ := result_map_eq_ok_iff.mp ok
      exact Operation.finite_of_lowerBoundsBackward returned

end Session

end Scalar

namespace Session

/-- A backward pass that returns was given finite gradients only and returns finite gradients only.
A gradient with an infinite or undefined entry therefore makes it fail, wherever the entry is. -/
theorem descend_absorbs_nothing {b : Batch (Solver Float32)} {record : Record Float32}
    (made : record.Made) (gradients : OutputGradients Float32) :
    (∀ answer, ((descend record gradients).run b).result = .ok answer →
      answer.Finite ∧ ∀ given, record.TakesIn gradients given → given.nonFinite = 0) ∧
    ∀ given, record.TakesIn gradients given → given.nonFinite ≠ 0 →
      ∃ e, ((descend record gradients).run b).result = .error e := by
  refine ⟨fun answer ok => finite_of_descend made ok, fun given taken tainted => ?_⟩
  cases returned : ((descend record gradients).run b).result with
  | error e => exact ⟨e, rfl⟩
  | ok answer => exact absurd ((finite_of_descend made returned).2 given taken) tainted

/-- Two solvers, the first of which has two layers for its variable. -/
def paired : Batch (Solver Float32) :=
  ofSolvers [.ofDiagrams ⟨1, [[.last 0], [.last 0]]⟩ none none,
    .ofDiagrams ⟨2, [List.finRange 2]⟩ none none]

/-- Costs for their layers. -/
def pairedInputs : Inputs Float32 (Buffer Float32) :=
  Inputs.map .ofArray ⟨⟨⟨#[1, 0, 2, 0, 1, 3, 0], #[2, 0, 1, 0, 3, 1, 0]⟩, #[0, 0, 1, 0, 0, 0, 0]⟩,
    #[1, 1, 1, 1, 1, 1, 1], .shared 1⟩

/-- Opposite infinities at the two layers do not cancel out. -/
theorem paired_absorbs_nothing :
    let forward := (Operation.ascend pairedInputs ⟨2, 1, 0, 1, 0, 0⟩).run paired
    let gradients (values : Array Float32) : OutputGradients Float32 :=
      ⟨none, none, some (.ofArray values), none, none⟩
    ∃ ascended record answer, forward.result = .ok (ascended, record) ∧
      ((descend (.ascent record) (gradients #[1, 2, 3, 4, 5, 6, 7])).run forward.state).result =
        .ok answer ∧
      answer.Finite ∧
      ∃ e, ((descend (.ascent record) (gradients #[1 / 0, 2, -1 / 0, 4, 5, 6, 7])).run
        forward.state).result = .error e := by
  intro forward gradients
  have answers : (forward.result.toOption.bind fun pair =>
      ((descend (.ascent pair.2) (gradients #[1, 2, 3, 4, 5, 6, 7])).run
        forward.state).result.toOption).isSome = true := by decide +kernel
  obtain ⟨answer, found⟩ := Option.isSome_iff_exists.mp answers
  obtain ⟨⟨ascended, record⟩, recorded, returned⟩ := Option.bind_eq_some_iff.mp found
  rw [toOption_eq_some_iff] at recorded returned
  have made : (Record.ascent record).Made := .ascent recorded
  refine ⟨ascended, record, answer, recorded, returned, ?_, ?_⟩
  · exact ((descend_absorbs_nothing made _).1 answer returned).1
  · exact (descend_absorbs_nothing made _).2 (.ofArray #[1 / 0, 2, -1 / 0, 4, 5, 6, 7])
      (.inr (.inr rfl)) (by decide +kernel)

end Session

end DualAscent
