/-!
Procedures: computations that change a state, report events and may fail. A failure keeps the
state reached so far and everything reported so far: what was done before it stays done.
-/

namespace DualAscent

/-- What a procedure leaves behind. -/
structure Outcome (Λ σ ε β : Type) where
  /-- Events in the order in which they happened. -/
  events : List Λ
  /-- State afterwards, also after a failure. -/
  state : σ
  /-- Result or failure. -/
  result : Except ε β

/-- A computation from a state to an outcome. -/
def Procedure (Λ σ ε β : Type) : Type := σ → Outcome Λ σ ε β

namespace Procedure

variable {Λ σ ε β γ : Type}

/-- Runs a procedure from a state. -/
def run (procedure : Procedure Λ σ ε β) (state : σ) : Outcome Λ σ ε β := procedure state

/-- Succeeds without an effect. -/
protected def pure (value : β) : Procedure Λ σ ε β := fun s => ⟨[], s, .ok value⟩

/-- Runs one procedure and then, unless it failed, another one that depends on its result. -/
protected def bind (procedure : Procedure Λ σ ε β) (next : β → Procedure Λ σ ε γ) :
    Procedure Λ σ ε γ :=
  fun s =>
    let first := procedure s
    match first.result with
    | .error e => ⟨first.events, first.state, .error e⟩
    | .ok value =>
      let second := next value first.state
      ⟨first.events ++ second.events, second.state, second.result⟩

instance : Monad (Procedure Λ σ ε) where
  pure := Procedure.pure
  bind := Procedure.bind

/-- The current state. -/
def read : Procedure Λ σ ε σ := fun s => ⟨[], s, .ok s⟩

/-- Replaces the state. -/
def write (state : σ) : Procedure Λ σ ε Unit := fun _ => ⟨[], state, .ok ()⟩

/-- Reports an event. -/
def log (event : Λ) : Procedure Λ σ ε Unit := fun s => ⟨[event], s, .ok ()⟩

/-- Fails. -/
def fail (error : ε) : Procedure Λ σ ε β := fun s => ⟨[], s, .error error⟩

/-- A computation that needs no state. -/
def lift (result : Except ε β) : Procedure Λ σ ε β := fun s => ⟨[], s, result⟩

@[simp]
theorem run_pure (value : β) (s : σ) :
    (pure value : Procedure Λ σ ε β).run s = ⟨[], s, .ok value⟩ := rfl

@[simp]
theorem run_read (s : σ) : (read : Procedure Λ σ ε σ).run s = ⟨[], s, .ok s⟩ := rfl

@[simp]
theorem run_write (new s : σ) :
    (write new : Procedure Λ σ ε Unit).run s = ⟨[], new, .ok ()⟩ := rfl

@[simp]
theorem run_log (event : Λ) (s : σ) :
    (log event : Procedure Λ σ ε Unit).run s = ⟨[event], s, .ok ()⟩ := rfl

@[simp]
theorem run_fail (error : ε) (s : σ) :
    (fail error : Procedure Λ σ ε β).run s = ⟨[], s, .error error⟩ := rfl

@[simp]
theorem run_lift (result : Except ε β) (s : σ) :
    (lift result : Procedure Λ σ ε β).run s = ⟨[], s, result⟩ := rfl

@[simp]
theorem run_pure_bind (value : β) (next : β → Procedure Λ σ ε γ) (s : σ) :
    (pure value >>= next).run s = (next value).run s := rfl

@[simp]
theorem run_read_bind (next : σ → Procedure Λ σ ε γ) (s : σ) :
    (read >>= next).run s = (next s).run s := rfl

@[simp]
theorem run_write_bind (new s : σ) (next : Unit → Procedure Λ σ ε γ) :
    (write new >>= next).run s = (next ()).run new := rfl

@[simp]
theorem run_log_bind (event : Λ) (next : Unit → Procedure Λ σ ε γ) (s : σ) :
    (log event >>= next).run s =
      ⟨event :: ((next ()).run s).events, ((next ()).run s).state, ((next ()).run s).result⟩ :=
  rfl

@[simp]
theorem run_lift_ok_bind (value : β) (next : β → Procedure Λ σ ε γ) (s : σ) :
    (lift (.ok value) >>= next).run s = (next value).run s := rfl

@[simp]
theorem run_lift_error_bind (error : ε) (next : β → Procedure Λ σ ε γ) (s : σ) :
    (lift (.error error) >>= next).run s = ⟨[], s, .error error⟩ := rfl

/-- After a success the next procedure runs in the state that the first one left. -/
theorem run_bind_of_ok {procedure : Procedure Λ σ ε β} {next : β → Procedure Λ σ ε γ}
    {s : σ} {value : β} (ok : (procedure.run s).result = .ok value) :
    (procedure >>= next).run s =
      ⟨(procedure.run s).events ++ ((next value).run (procedure.run s).state).events,
        ((next value).run (procedure.run s).state).state,
        ((next value).run (procedure.run s).state).result⟩ := by
  show Procedure.bind procedure next s = _
  simp only [Procedure.bind]
  split
  · next failed => simp [run, failed] at ok
  · next other found =>
    have same : other = value := by simpa [run, found] using ok
    subst same
    rfl

/-- After a failure nothing else runs. -/
theorem run_bind_of_error {procedure : Procedure Λ σ ε β} {next : β → Procedure Λ σ ε γ}
    {s : σ} {e : ε} (failed : (procedure.run s).result = .error e) :
    (procedure >>= next).run s = ⟨(procedure.run s).events, (procedure.run s).state, .error e⟩ := by
  show Procedure.bind procedure next s = _
  simp only [Procedure.bind]
  split
  · next other found =>
    have same : other = e := by simpa [run, found] using failed
    subst same
    rfl
  · next found => simp [run, found] at failed

end Procedure

end DualAscent
