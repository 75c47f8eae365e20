import DualAscent.Engine

/-!
Engines that fail on purpose: a wrapper that answers some routines with a given error before the
wrapped engine is asked.
-/

namespace DualAscent

/-- An engine together with the routines that are to fail. -/
structure Faulty (σ : Type) where
  /-- The wrapped engine. -/
  engine : σ
  /-- Routines with the error of each; the first entry of a routine counts. -/
  faults : List (Routine × EngineError)

namespace Faulty

variable {α σ : Type}

/-- The error with which a routine is to fail. -/
def fault? (f : Faulty σ) (routine : Routine) : Option EngineError :=
  (f.faults.find? (·.1 = routine)).map (·.2)

/-- A procedure of the wrapped engine and of slices lent to it. -/
def inside {Λ δ ε β : Type} (work : Procedure Λ (Lent σ δ) ε β) :
    Procedure Λ (Lent (Faulty σ) δ) ε β := fun lent =>
  let outcome := work.run ⟨lent.engine.engine, lent.slices⟩
  { events := outcome.events
    state := ⟨{ lent.engine with engine := outcome.state.engine }, outcome.state.slices⟩
    result := outcome.result }

instance [Engine α σ] : Engine α (Faulty σ) where
  sizes f := Engine.sizes f.engine
  call invocation := do
    let lent ← Procedure.read
    match lent.engine.fault? invocation.routine with
    | some error => Procedure.fail error
    | none => inside (Engine.call invocation)

end Faulty

end DualAscent
