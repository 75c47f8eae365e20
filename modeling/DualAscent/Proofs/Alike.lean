import DualAscent.Proofs.Batch.Walk

/-!
# Procedures that end alike

Two procedures end alike if they leave the same state and succeed with the same value or both
fail, whatever they report on the way and whatever their failures say.
-/

namespace DualAscent

/-- The state afterwards, and the value after a success. -/
def Outcome.ending {Λ σ ε β : Type} (outcome : Outcome Λ σ ε β) : σ × Option β :=
  (outcome.state, outcome.result.toOption)

namespace Procedure

variable {Λ σ ε β γ : Type}

/-- From every state both procedures end alike. -/
def Alike (first second : Procedure Λ σ ε β) : Prop :=
  ∀ s, (first.run s).ending = (second.run s).ending

theorem ending_eq_iff {Λ' ε' : Type} {first : Outcome Λ σ ε β} {second : Outcome Λ' σ ε' β} :
    first.ending = second.ending ↔ first.state = second.state ∧
      ∀ value, first.result = .ok value ↔ second.result = .ok value := by
  obtain ⟨_, state, result⟩ := first
  obtain ⟨_, state', result'⟩ := second
  rw [Outcome.ending, Outcome.ending, Prod.mk.injEq]
  refine and_congr_right fun _ => ?_
  cases result with
  | error e =>
      cases result' with
      | error e' => simp [Except.toOption]
      | ok value' => simp [Except.toOption]
  | ok value =>
      cases result' with
      | error e' => simp [Except.toOption]
      | ok value' =>
          simp only [Except.toOption, Option.some.injEq, Except.ok.injEq]
          exact ⟨fun same _ => same ▸ Iff.rfl, fun same => ((same value).mp rfl).symm⟩

theorem ending_eq_some_iff {outcome : Outcome Λ σ ε β} {s : σ} {value : β} :
    outcome.ending = (s, some value) ↔ outcome.state = s ∧ outcome.result = .ok value := by
  rw [Outcome.ending, Prod.mk.injEq, toOption_eq_some_iff]

theorem ending_bind (procedure : Procedure Λ σ ε β) (next : β → Procedure Λ σ ε γ) (s : σ) :
    ((procedure >>= next).run s).ending =
      match (procedure.run s).ending with
      | (reached, none) => (reached, none)
      | (reached, some value) => ((next value).run reached).ending := by
  rw [run_bind]
  simp only [Outcome.ending]
  cases (procedure.run s).result with
  | error e => rfl
  | ok value => rfl

theorem ending_bind_congr {Λ' ε' δ : Type} {first : Procedure Λ σ ε β}
    {first' : Procedure Λ' σ ε' β} {next : β → Procedure Λ σ ε γ} {next' : β → Procedure Λ' σ ε' δ}
    {f : δ → γ} {s : σ} (same : (first.run s).ending = (first'.run s).ending)
    (rest : ∀ value reached, ((next value).run reached).ending =
      (((next' value).run reached).ending.1, ((next' value).run reached).ending.2.map f)) :
    ((first >>= next).run s).ending =
      (((first' >>= next').run s).ending.1, ((first' >>= next').run s).ending.2.map f) := by
  rw [ending_bind, ending_bind, same]
  rcases (first'.run s).ending with ⟨reached, none | value⟩
  · rfl
  · exact rest value reached

theorem Yields.ending {procedure : Procedure Λ σ ε β} {s reached : σ} {value : β}
    (yields : procedure.Yields s reached value) :
    (procedure.run s).ending = (reached, some value) := by
  rw [Outcome.ending, yields.state, yields.result]
  rfl

theorem Yields.ending_bind {procedure : Procedure Λ σ ε β} {s reached : σ} {value : β}
    (yields : procedure.Yields s reached value) (next : β → Procedure Λ σ ε γ) :
    ((procedure >>= next).run s).ending = ((next value).run reached).ending := by
  obtain ⟨_, run_eq⟩ := yields.run_bind next
  rw [run_eq]
  rfl

namespace Alike

theorem refl (procedure : Procedure Λ σ ε β) : Alike procedure procedure := fun _ => rfl

theorem log (event event' : Λ) :
    Alike (Procedure.log event : Procedure Λ σ ε Unit) (Procedure.log event') := fun _ => rfl

theorem bind {first second : Procedure Λ σ ε β} {next next' : β → Procedure Λ σ ε γ}
    (alike : Alike first second) (alike' : ∀ value, Alike (next value) (next' value)) :
    Alike (first >>= next) (second >>= next') := by
  intro s
  rw [ending_bind, ending_bind, alike s]
  rcases (second.run s).ending with ⟨reached, none | value⟩
  · rfl
  · exact alike' value reached

end Alike

end Procedure

/-- An engine's answer is handed on; where it is asked for matters only to reports and failures. -/
theorem Batch.ending_attempt {α σ β : Type} [Zero α] [Engine α σ] (i : Nat) (context : Context α)
    (request : Request α β) (s : σ) :
    ((attempt i context request).run s).ending = ((Engine.perform request).run s).ending := by
  rw [Procedure.run, attempt]
  generalize (Engine.perform request).run s = outcome
  obtain ⟨events, reached, result⟩ := outcome
  cases result with
  | ok value => rfl
  | error source =>
      cases source with
      | misuse cause => rfl
      | _ => rfl

theorem Batch.result_attempt_eq_ok_iff {α σ β : Type} [Zero α] [Engine α σ] {i : Nat}
    {context : Context α} {request : Request α β} {s : σ} {value : β} :
    ((attempt i context request).run s).result = .ok value ↔
      ((Engine.perform request).run s).result = .ok value :=
  (Procedure.ending_eq_iff.mp (ending_attempt i context request s)).2 value

theorem Batch.alike_attempt {α σ β : Type} [Zero α] [Engine α σ] {i j : Nat}
    {context context' : Context α} {request : Request α β} :
    Procedure.Alike (attempt i context request : Procedure _ σ _ β) (attempt j context' request) :=
  fun s => (ending_attempt i context request s).trans (ending_attempt j context' request s).symm

end DualAscent
