import DualAscent.Damping

/-!
# Kinds of damping

Damping factors and gradients with respect to them come in two kinds, which every operation keeps.
-/

namespace DualAscent.Damping

variable {α β : Type} {n : Nat}

/-- Either both factors are shared or both are given per layer. -/
def Matches {τ υ : Type} (first : Damping α τ) (second : Damping β υ) : Prop :=
  first.shared?.isSome = second.shared?.isSome

theorem Matches.of_shared {τ υ : Type} {value : α} {other : Damping β υ}
    (matched : (shared value : Damping α τ).Matches other) : ∃ value', other = .shared value' := by
  cases other with
  | shared value' => exact ⟨value', rfl⟩
  | perLayer values => cases matched

theorem Matches.of_perLayer {τ υ : Type} {values : τ} {other : Damping β υ}
    (matched : (perLayer values : Damping α τ).Matches other) :
    ∃ values', other = .perLayer values' := by
  cases other with
  | shared value => cases matched
  | perLayer values' => exact ⟨values', rfl⟩

theorem matches_map {τ τ' : Type} (damping : Damping α τ) (f : τ → τ') :
    damping.Matches (damping.map f) := by
  cases damping with
  | shared value => rfl
  | perLayer values => rfl

@[simp]
theorem shared?_map {τ τ' : Type} (damping : Damping α τ) (f : τ → τ') :
    (damping.map f).shared? = damping.shared? := by
  cases damping with
  | shared value => rfl
  | perLayer values => rfl

theorem Matches.symm {τ υ : Type} {first : Damping α τ} {second : Damping β υ}
    (matched : first.Matches second) : second.Matches first :=
  Eq.symm matched

theorem Matches.trans {γ τ υ φ : Type} {first : Damping α τ} {second : Damping β υ}
    {third : Damping γ φ} (matched : first.Matches second) (matched' : second.Matches third) :
    first.Matches third :=
  Eq.trans matched matched'

theorem matches_accumulate {τ : Type} [Add α] {damping : Damping α (Vector α n)}
    {other : Damping β τ} (matched : damping.Matches other) (amounts : Vector α n) :
    (damping.accumulate amounts).Matches other := by
  cases damping with
  | shared value => exact matched
  | perLayer values => exact matched

end DualAscent.Damping
