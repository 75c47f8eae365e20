import DualAscent.Operation.Saved
import DualAscent.Proofs.Exact
import DualAscent.Proofs.Procedure

/-!
# The check for finite gradients

It accepts arrays of finite numbers and nothing else, so that it never fails in exact arithmetic.
-/

namespace DualAscent

variable {α : Type} [Scalar α]

/-- All entries are finite. -/
def FiniteEntries (values : Array α) : Prop := ∀ value ∈ values, Scalar.isFinite value = true

theorem FiniteEntries.slice {values : Array α} (finite : FiniteEntries values) (span : Span) :
    FiniteEntries (span.slice values) := by
  intro value inside
  obtain ⟨k, within, rfl⟩ := Array.mem_extract_iff_getElem.mp inside
  exact finite _ (Array.getElem_mem _)

theorem Buffer.nonFinite_ofArray_eq_zero_iff {values : Array α} :
    (ofArray values).nonFinite = 0 ↔ FiniteEntries values := by
  show (everyNth values 1 Nat.one_pos).countP (!Scalar.isFinite ·) = 0 ↔ _
  rw [everyNth_one, Array.countP_eq_zero]
  refine forall₂_congr fun value _ => ?_
  rw [Bool.not_eq_true', Bool.not_eq_false]

theorem Operation.requireFiniteArrays_eq_ok_iff {named : List (String × Array α)} :
    requireFiniteArrays named = .ok () ↔ ∀ pair ∈ named, FiniteEntries pair.2 := by
  induction named with
  | nil => exact ⟨fun _ _ inside => absurd inside List.not_mem_nil, fun _ => rfl⟩
  | cons pair named ih =>
      rw [List.forall_mem_cons, ← ih, ← Buffer.nonFinite_ofArray_eq_zero_iff]
      show (if (Buffer.ofArray pair.2).nonFinite = 0 then _ else _ : Except (Error α) Unit) >>=
        (fun _ => requireFiniteArrays named) = _ ↔ _
      by_cases finite : (Buffer.ofArray pair.2).nonFinite = 0
      · rw [if_pos finite]
        exact ⟨fun ok => ⟨finite, ok⟩, And.right⟩
      · rw [if_neg finite]
        constructor
        · intro failed
          cases failed
        · rintro ⟨zero, -⟩
          exact absurd zero finite

/-- What the check refuses, it names. -/
theorem Operation.requireFiniteArrays_cases (named : List (String × Array α)) :
    requireFiniteArrays named = .ok () ∨ ∃ gradient count length,
      requireFiniteArrays named = .error (.nonFinite gradient count length) := by
  induction named with
  | nil => exact .inl rfl
  | cons pair named ih =>
      show (if (Buffer.ofArray pair.2).nonFinite = 0 then _ else _ : Except (Error α) Unit) >>=
        (fun _ => requireFiniteArrays named) = _ ∨ ∃ gradient count length,
          (if (Buffer.ofArray pair.2).nonFinite = 0 then _ else _ : Except (Error α) Unit) >>=
            (fun _ => requireFiniteArrays named) = .error (.nonFinite gradient count length)
      by_cases finite : (Buffer.ofArray pair.2).nonFinite = 0
      · rw [if_pos finite]
        exact ih
      · rw [if_neg finite]
        exact .inr ⟨_, _, _, rfl⟩

theorem Operation.requireFiniteArrays_eq_ok [AllFinite α] (named : List (String × Array α)) :
    requireFiniteArrays named = .ok () :=
  requireFiniteArrays_eq_ok_iff.mpr fun _ _ value _ => AllFinite.isFinite value

end DualAscent
