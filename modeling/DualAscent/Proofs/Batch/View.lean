import DualAscent.Proofs.Alike

/-!
# What a traversal leaves as it was

A traversal freezes the sizes of the solvers.  If no solver's procedure changes a view of its
solver, the traversal does not change these views either, also where it stops at a failure.
-/

namespace DualAscent.Batch

open Procedure

variable {Λ σ ε ι κ τ β : Type} {view : σ → τ}

/-- The frozen sizes of every solver, and a view of it. -/
def views (view : σ → τ) (b : Batch σ) : List (Sizes × τ) :=
  b.members.map fun member => (member.frozen, view member.solver)

theorem map_walk {work : Nat → ι → κ → Procedure Λ σ ε (κ × β)}
    (fixed : ∀ i share carry, Fixes view (work i share carry)) (position : Nat) (carry : κ)
    (shares : List ι) (members : List (Member σ)) :
    (walk work position carry shares members).state.map
        (fun member => (member.frozen, view member.solver)) =
      members.map fun member => (member.frozen, view member.solver) := by
  induction members generalizing shares position carry with
  | nil =>
      cases shares with
      | nil => rfl
      | cons share shares => rfl
  | cons member members ih =>
      cases shares with
      | nil => rfl
      | cons share shares =>
          have here := fixed position share carry member.solver
          rw [walk]
          dsimp only
          split
          · rw [List.map_cons, List.map_cons, here]
          · rw [List.map_cons, List.map_cons, here, ih]

theorem fixes_visitCarrying {work : Nat → ι → κ → Procedure Λ σ ε (κ × β)}
    (fixed : ∀ i share carry, Fixes view (work i share carry)) (carry : κ) (shares : List ι) :
    Fixes (views view) (visitCarrying carry shares work) :=
  fun b => map_walk fixed 0 carry shares b.members

theorem fixes_visit {work : Nat → ι → Procedure Λ σ ε β}
    (fixed : ∀ i share, Fixes view (work i share)) (shares : List ι) :
    Fixes (views view) (visit shares work) :=
  (fixes_visitCarrying (fun i share _ => (fixed i share).bind fun value => .pure ((), value)) ()
    shares).bind fun outcome => .pure outcome.2

section Engine

variable {α : Type} [Zero α] [Engine α σ]

theorem fixes_attempt {request : Request α β} (fixed : Fixes view (Engine.perform request))
    (i : Nat) (context : Context α) : Fixes view (attempt i context request) :=
  fun s => (congrArg (fun ending => view ending.1) (ending_attempt i context request s)).trans
    (fixed s)

omit [Zero α] in
theorem fixes_resolve {υ : Type} {seen : Batch σ → υ} (kind : Segmentation) (length : Nat) :
    Fixes seen (resolve kind length : Work α σ Layout) :=
  Fixes.read.bind fun _ => (Fixes.lift _).bind fun _ => (Fixes.lift _).bind fun _ =>
    (Fixes.log _).bind fun _ => .pure _

/-- A violated precondition comes out as it is. -/
theorem attempt_misuse {request : Request α β} {s : σ} {cause : Misuse}
    (broken : ((Engine.perform request).run s).result = .error (.misuse cause)) (i : Nat)
    (context : Context α) :
    ((attempt i context request).run s).result = .error (.misuse cause) := by
  rw [Procedure.run, attempt, broken]

end Engine

end DualAscent.Batch
