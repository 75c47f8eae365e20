import DualAscent.Procedure

/-!
# What a procedure leaves behind

A sequence of two procedures succeeds exactly if both parts do, and its state is the one that the
last part to run left.  A view of the state that no part changes is therefore the same before and
after the whole.
-/

namespace DualAscent

theorem ok_bind {ε β γ : Type} (value : β) (next : β → Except ε γ) :
    (Except.ok value >>= next) = next value := rfl

theorem bind_eq_ok_iff {ε β γ : Type} {first : Except ε β} {next : β → Except ε γ} {value : γ} :
    first >>= next = .ok value ↔ ∃ middle, first = .ok middle ∧ next middle = .ok value := by
  cases first with
  | error e =>
      constructor
      · intro failed
        cases failed
      · rintro ⟨_, failed, -⟩
        cases failed
  | ok middle =>
      constructor
      · intro ok
        exact ⟨middle, rfl, ok⟩
      · rintro ⟨_, same, ok⟩
        cases same
        exact ok

theorem map_eq_error_iff {ε β γ : Type} {result : Except ε β} {f : β → γ} {e : ε} :
    result.map f = .error e ↔ result = .error e := by
  cases result with
  | error other => simp [Except.map]
  | ok value => simp [Except.map]

theorem toOption_eq_some_iff {ε β : Type} {result : Except ε β} {value : β} :
    result.toOption = some value ↔ result = .ok value := by
  cases result with
  | error e => simp [Except.toOption]
  | ok other => simp [Except.toOption]

namespace Procedure

variable {Λ σ ε β γ : Type}

theorem run_bind (procedure : Procedure Λ σ ε β) (next : β → Procedure Λ σ ε γ) (s : σ) :
    (procedure >>= next).run s =
      match (procedure.run s).result with
      | .error e => ⟨(procedure.run s).events, (procedure.run s).state, .error e⟩
      | .ok value =>
        ⟨(procedure.run s).events ++ ((next value).run (procedure.run s).state).events,
          ((next value).run (procedure.run s).state).state,
          ((next value).run (procedure.run s).state).result⟩ := by
  cases outcome : (procedure.run s).result with
  | error e => exact run_bind_of_error outcome
  | ok value => exact run_bind_of_ok outcome

/-- What follows matters only in the state that is reached. -/
theorem run_bind_congr {procedure procedure' : Procedure Λ σ ε β}
    {next next' : β → Procedure Λ σ ε γ} {s : σ} (same : procedure.run s = procedure'.run s)
    (rest : ∀ value,
      (next value).run (procedure.run s).state = (next' value).run (procedure.run s).state) :
    (procedure >>= next).run s = (procedure' >>= next').run s := by
  rw [run_bind, run_bind, ← same]
  cases (procedure.run s).result with
  | error e => rfl
  | ok value => simp only [rest value]

theorem run_lift_bind_pure (check : Except ε β) (value : γ) (s : σ) :
    (lift check >>= fun _ => pure value : Procedure Λ σ ε γ).run s =
      ⟨[], s, check >>= fun _ => .ok value⟩ := by
  cases check with
  | error e => rfl
  | ok _ => rfl

theorem result_bind_eq_ok_iff {procedure : Procedure Λ σ ε β} {next : β → Procedure Λ σ ε γ}
    {s : σ} {value : γ} :
    ((procedure >>= next).run s).result = .ok value ↔
      ∃ first, (procedure.run s).result = .ok first ∧
        ((next first).run (procedure.run s).state).result = .ok value := by
  rw [run_bind]
  cases (procedure.run s).result with
  | error e => simp
  | ok first => simp

theorem result_lift_bind_eq_ok_iff {check : Except ε β} {next : β → Procedure Λ σ ε γ} {s : σ}
    {value : γ} :
    ((lift check >>= next).run s).result = .ok value ↔
      ∃ first, check = .ok first ∧ ((next first).run s).result = .ok value :=
  result_bind_eq_ok_iff

theorem state_bind_of_ok {procedure : Procedure Λ σ ε β} {next : β → Procedure Λ σ ε γ} {s : σ}
    {first : β} (ok : (procedure.run s).result = .ok first) :
    ((procedure >>= next).run s).state = ((next first).run (procedure.run s).state).state := by
  rw [run_bind_of_ok ok]

theorem result_bind_of_error {procedure : Procedure Λ σ ε β} {next : β → Procedure Λ σ ε γ} {s : σ}
    {e : ε} (failed : (procedure.run s).result = .error e) :
    ((procedure >>= next).run s).result = .error e := by
  rw [run_bind_of_error failed]

theorem state_map (f : β → γ) (procedure : Procedure Λ σ ε β) (s : σ) :
    ((f <$> procedure).run s).state = (procedure.run s).state := by
  show ((procedure >>= fun value => pure (f value)).run s).state = _
  rw [run_bind]
  cases (procedure.run s).result with
  | error e => rfl
  | ok value => rfl

theorem result_map (f : β → γ) (procedure : Procedure Λ σ ε β) (s : σ) :
    ((f <$> procedure).run s).result = (procedure.run s).result.map f := by
  show ((procedure >>= fun value => pure (f value)).run s).result = _
  rw [run_bind]
  cases (procedure.run s).result with
  | error e => rfl
  | ok value => rfl

theorem result_map_eq_ok_iff {f : β → γ} {procedure : Procedure Λ σ ε β} {s : σ} {answer : γ} :
    ((f <$> procedure).run s).result = .ok answer ↔
      ∃ value, (procedure.run s).result = .ok value ∧ f value = answer := by
  rw [result_map]
  cases (procedure.run s).result with
  | error e => simp [Except.map]
  | ok value => simp [Except.map]

/-- The procedure succeeds, with this state and this value. -/
structure Yields (procedure : Procedure Λ σ ε β) (s reached : σ) (value : β) : Prop where
  state : (procedure.run s).state = reached
  result : (procedure.run s).result = .ok value

namespace Yields

variable {s reached final : σ} {value : β}

theorem pure (value : β) (s : σ) : (pure value : Procedure Λ σ ε β).Yields s s value := ⟨rfl, rfl⟩

theorem log (event : Λ) (s : σ) : (log event : Procedure Λ σ ε Unit).Yields s s () := ⟨rfl, rfl⟩

theorem of_run {procedure : Procedure Λ σ ε β} {events : List Λ}
    (run_eq : procedure.run s = ⟨events, reached, .ok value⟩) :
    procedure.Yields s reached value :=
  ⟨congrArg Outcome.state run_eq, congrArg Outcome.result run_eq⟩

theorem run_bind {procedure : Procedure Λ σ ε β} (first : procedure.Yields s reached value)
    (next : β → Procedure Λ σ ε γ) :
    ∃ events, (procedure >>= next).run s =
      ⟨events, ((next value).run reached).state, ((next value).run reached).result⟩ := by
  rw [run_bind_of_ok first.result, first.state]
  exact ⟨_, rfl⟩

theorem state_bind {procedure : Procedure Λ σ ε β} (first : procedure.Yields s reached value)
    (next : β → Procedure Λ σ ε γ) :
    ((procedure >>= next).run s).state = ((next value).run reached).state := by
  rw [state_bind_of_ok first.result, first.state]

theorem result_bind {procedure : Procedure Λ σ ε β} (first : procedure.Yields s reached value)
    (next : β → Procedure Λ σ ε γ) :
    ((procedure >>= next).run s).result = ((next value).run reached).result := by
  rw [run_bind_of_ok first.result, first.state]

theorem bind {procedure : Procedure Λ σ ε β} {next : β → Procedure Λ σ ε γ} {last : γ}
    (first : procedure.Yields s reached value) (second : (next value).Yields reached final last) :
    (procedure >>= next).Yields s final last := by
  exact ⟨(first.state_bind next).trans second.state, (first.result_bind next).trans second.result⟩

end Yields

section Fixes

variable {τ : Type} {view : σ → τ}

/-- However the procedure ends, this view of its state is the one from before. -/
def Fixes (view : σ → τ) (procedure : Procedure Λ σ ε β) : Prop :=
  ∀ s, view (procedure.run s).state = view s

namespace Fixes

theorem pure (value : β) : Fixes view (pure value : Procedure Λ σ ε β) := fun _ => rfl

theorem read : Fixes view (read : Procedure Λ σ ε σ) := fun _ => rfl

theorem log (event : Λ) : Fixes view (log event : Procedure Λ σ ε Unit) := fun _ => rfl

theorem lift (result : Except ε β) : Fixes view (lift result : Procedure Λ σ ε β) := fun _ => rfl

theorem bind {procedure : Procedure Λ σ ε β} {next : β → Procedure Λ σ ε γ}
    (first : Fixes view procedure) (second : ∀ value, Fixes view (next value)) :
    Fixes view (procedure >>= next) := by
  intro s
  rw [run_bind]
  cases (procedure.run s).result with
  | error e => exact first s
  | ok value => exact (second value _).trans (first s)

theorem map (f : β → γ) {procedure : Procedure Λ σ ε β} (fixed : Fixes view procedure) :
    Fixes view (f <$> procedure) :=
  fixed.bind fun value => .pure (f value)

end Fixes

end Fixes

end Procedure

end DualAscent
