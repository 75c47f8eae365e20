import DualAscent.Proofs.Operation.Ledger
import DualAscent.Session

/-!
# The account of a session

The ledgers of the solvers belong together with the dual ascents whose records are still unused.
No call but a dual ascent and its backward pass touches either of them.
-/

namespace DualAscent

open Procedure Batch

variable {α : Type}

/-- The record, if it is of a dual ascent. -/
def Record.ascent? : Record α → Option (AscentRecord α)
  | .ascent record => some record
  | _ => none

/-- The records of dual ascents among these, by label. -/
def Record.ascents (records : List (Nat × Record α)) : List (Nat × AscentRecord α) :=
  records.filterMap fun entry => entry.2.ascent?.map (Prod.mk entry.1)

namespace Record

variable {label : Nat} {record : Record α} {key : Nat} {first : Record α}
  {records : List (Nat × Record α)}

theorem ascent?_eq_some {ascent : AscentRecord α} (same : record.ascent? = some ascent) :
    record = .ascent ascent := by
  cases record with
  | ascent other => exact congrArg Record.ascent (Option.some.inj same)
  | _ => cases same

theorem ascents_cons_of_none (other : first.ascent? = none) :
    ascents ((key, first) :: records) = ascents records := by
  simp [ascents, other]

theorem ascents_cons_of_some {ascent : AscentRecord α} (same : first.ascent? = some ascent) :
    ascents ((key, first) :: records) = (key, ascent) :: ascents records := by
  simp [ascents, same]

/-- Without the record of another operation the dual ascents are the same. -/
theorem ascents_eraseP_of_none (found : records.lookup label = some record)
    (other : record.ascent? = none) :
    ascents (records.eraseP (·.1 = label)) = ascents records := by
  induction records with
  | nil => rfl
  | cons entry records ih =>
      obtain ⟨key, first⟩ := entry
      by_cases same : key = label
      · subst same
        rw [List.lookup_cons_self] at found
        cases found
        rw [List.eraseP_cons_of_pos (by simp), ascents_cons_of_none other]
      · rw [List.lookup_cons, beq_false_of_ne (Ne.symm same)] at found
        rw [List.eraseP_cons_of_neg (by simpa using same)]
        cases kind : first.ascent? with
        | none => rw [ascents_cons_of_none kind, ascents_cons_of_none kind, ih found]
        | some ascent => rw [ascents_cons_of_some kind, ascents_cons_of_some kind, ih found]

/-- Without the newest dual ascent the others are left. -/
theorem ascents_eraseP_of_some {ascent : AscentRecord α}
    (found : records.lookup label = some (.ascent ascent))
    (newest : (ascents records).head? = some (label, ascent)) :
    ascents records = (label, ascent) :: ascents (records.eraseP (·.1 = label)) := by
  induction records with
  | nil => cases found
  | cons entry records ih =>
      obtain ⟨key, first⟩ := entry
      by_cases same : key = label
      · subst same
        rw [List.lookup_cons_self] at found
        cases found
        rw [List.eraseP_cons_of_pos (by simp), ascents_cons_of_some rfl]
      · rw [List.lookup_cons, beq_false_of_ne (Ne.symm same)] at found
        rw [List.eraseP_cons_of_neg (by simpa using same)]
        cases kind : first.ascent? with
        | none =>
            rw [ascents_cons_of_none kind] at newest
            rw [ascents_cons_of_none kind, ascents_cons_of_none kind, ih found newest]
        | some ascent =>
            rw [ascents_cons_of_some kind, List.head?_cons] at newest
            cases newest
            exact absurd rfl same

end Record

namespace Session

/-- The unused records of dual ascents by label, the newest first. -/
def ascents {σ : Type} (s : Session α σ) : List (Nat × AscentRecord α) := Record.ascents s.records

/-- The ledgers of the solvers, and the dual ascents whose gradient is still outstanding. -/
def account (s : Session α (Solver α)) : List (Sizes × Ledger) × List (Nat × AscentRecord α) :=
  (ledgers s.batch, s.ascents)

section Calls

variable {β ρ : Type} (label : Nat) (wrap : ρ → Record α)

theorem fixes_onBatch {work : Batch.Work α (Solver α) β} (fixed : Fixes ledgers work) :
    Fixes account (onBatch work) :=
  fun s => congrArg (fun entries => (entries, s.ascents)) (fixed s.batch)

theorem recording_of_error {σ : Type} {forward : Batch.Work α σ (β × ρ)} {s : Session α σ}
    {e : Error α} (failed : (forward.run s.batch).result = .error e) :
    let outcome := (recording label wrap forward).run s
    outcome.state = s.withBatch (forward.run s.batch).state ∧
      outcome.result = .error (.operation e) := by
  have result : ((onBatch forward).run s).result = .error (.operation e) :=
    congrArg (Except.mapError CommandError.operation) failed
  intro outcome
  have run_eq : outcome = _ := run_bind_of_error result
  exact ⟨congrArg Outcome.state run_eq, congrArg Outcome.result run_eq⟩

theorem recording_of_ok {σ : Type} {forward : Batch.Work α σ (β × ρ)} {s : Session α σ} {value : β}
    {record : ρ} (ok : (forward.run s.batch).result = .ok (value, record)) :
    (recording label wrap forward).Yields s
      ⟨(forward.run s.batch).state, (label, wrap record) :: s.records⟩ value := by
  have forwarded : (onBatch forward).Yields s (s.withBatch (forward.run s.batch).state)
      (value, record) := ⟨rfl, congrArg (Except.mapError CommandError.operation) ok⟩
  exact forwarded.bind ⟨rfl, rfl⟩

theorem fixes_recording {wrap : ρ → Record α} {forward : Batch.Work α (Solver α) (β × ρ)}
    (fixed : Fixes ledgers forward) (other : ∀ record, (wrap record).ascent? = none) :
    Fixes account (recording label wrap forward) := by
  intro s
  cases result : (forward.run s.batch).result with
  | error e =>
      rw [(recording_of_error label wrap result).1]
      exact fixes_onBatch fixed s
  | ok pair =>
      obtain ⟨value, record⟩ := pair
      rw [(recording_of_ok label wrap result).state]
      exact congrArg₂ Prod.mk (fixed s.batch) (Record.ascents_cons_of_none (other record))

end Calls

variable [Scalar α] [Zero α] [Add α] [Sub α] [Mul α] [Neg α]

theorem fixes_descend {τ : Type} {view : Solver α → τ} (blind : Solver.Blind view)
    {record : Record α} (other : record.ascent? = none) (gradients : OutputGradients α) :
    Fixes (views view) (descend record gradients : Batch.Work α (Solver α) _) := by
  cases record with
  | ascent record => cases other
  | redistribution record =>
      exact .map _ (Operation.fixes_redistributeBackward blind record gradients)
  | minMarginals record =>
      exact .map _ (Operation.fixes_minMarginalsBackward blind record gradients)
  | perturbation record => exact .map _ (Operation.fixes_perturbBackward blind record gradients)
  | bounds record => exact .map _ (Operation.fixes_lowerBoundsBackward blind record gradients)

end Session

end DualAscent
