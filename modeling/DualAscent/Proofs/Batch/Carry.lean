import DualAscent.Proofs.Alike
import Mathlib.Algebra.BigOperators.Group.List.Basic

/-!
# Visits that carry a value along

If what a solver does does not depend on the carried value, but for how the value is updated and
shown, then the solvers can be visited without it.
-/

namespace DualAscent.Batch

variable {Λ σ ε ι κ β γ : Type}

/-- What is carried to the end and shown on the way, from what the solvers answer. -/
def gather (next : κ → β → κ) (shown : κ → β → γ) : κ → List β → κ × List γ
  | carry, [] => (carry, [])
  | carry, value :: values =>
    ((gather next shown (next carry value) values).1,
      shown carry value :: (gather next shown (next carry value) values).2)

theorem gather_snd_of_shown (next : κ → β → κ) (carry : κ) (values : List β) :
    (gather next (fun _ value => value) carry values).2 = values := by
  induction values generalizing carry with
  | nil => rfl
  | cons value values ih => exact congrArg (value :: ·) (ih (next carry value))

theorem map_gather_snd {δ : Type} (next : κ → β → κ) (shown : κ → β → γ) {f : γ → δ} {g : β → δ}
    (same : ∀ carry value, f (shown carry value) = g value) (carry : κ) (values : List β) :
    (gather next shown carry values).2.map f = values.map g := by
  induction values generalizing carry with
  | nil => rfl
  | cons value values ih =>
      rw [List.map_cons, ← same carry value, ← ih (next carry value)]
      rfl

theorem gather_fst_eq_add_sum [AddMonoid κ] {next : κ → β → κ} (shown : κ → β → γ) {f : β → κ}
    (adds : ∀ carry value, next carry value = carry + f value) (carry : κ) (values : List β) :
    (gather next shown carry values).1 = carry + (values.map f).sum := by
  induction values generalizing carry with
  | nil => exact (add_zero carry).symm
  | cons value values ih =>
      rw [List.map_cons, List.sum_cons, ← add_assoc, ← adds, ← ih]
      rfl

theorem ending_walk_cons (work : Nat → ι → κ → Procedure Λ σ ε (κ × β)) (position : Nat) (carry : κ)
    (share : ι) (shares : List ι) (member : Member σ) (members : List (Member σ)) :
    (walk work position carry (share :: shares) (member :: members)).ending =
      match ((work position share carry).run member.solver).ending with
      | (reached, none) => (⟨reached, member.frozen⟩ :: members, none)
      | (reached, some (next, value)) =>
        let rest := (walk work (position + 1) next shares members).ending
        (⟨reached, member.frozen⟩ :: rest.1, rest.2.map fun (last, values) =>
          (last, value :: values)) := by
  simp only [walk, Outcome.ending]
  cases ((work position share carry).run member.solver).result with
  | error e => rfl
  | ok pair =>
      obtain ⟨next, value⟩ := pair
      simp only [Except.toOption]
      cases (walk work (position + 1) next shares members).result with
      | error e => rfl
      | ok rest => rfl

theorem ending_quiet (alone : Nat → ι → Procedure Λ σ ε β) (i : Nat) (share : ι) (s : σ) :
    ((quiet alone i share ()).run s).ending =
      (((alone i share).run s).ending.1, ((alone i share).run s).ending.2.map fun value =>
        ((), value)) := by
  rw [quiet, Procedure.ending_bind]
  rcases ((alone i share).run s).ending with ⟨reached, none | value⟩
  · rfl
  · rfl

theorem ending_visit (alone : Nat → ι → Procedure Λ σ ε β) (shares : List ι) (b : Batch σ) :
    ((visit shares alone).run b).ending =
      (⟨(walk (quiet alone) 0 () shares b.members).ending.1⟩,
        (walk (quiet alone) 0 () shares b.members).ending.2.map Prod.snd) := by
  show ((visitCarrying () shares (quiet alone) >>= fun outcome => pure outcome.2 :
    Procedure Λ (Batch σ) ε (List β)).run b).ending = _
  have unfolded : ((visitCarrying () shares (quiet alone)).run b).ending =
      (⟨(walk (quiet alone) 0 () shares b.members).ending.1⟩,
        (walk (quiet alone) 0 () shares b.members).ending.2) := rfl
  rw [Procedure.ending_bind, unfolded]
  cases (walk (quiet alone) 0 () shares b.members).ending.2 with
  | none => rfl
  | some outcome => rfl

section Gather

variable {work : Nat → ι → κ → Procedure Λ σ ε (κ × γ)} {alone : Nat → ι → Procedure Λ σ ε β}
  {next : κ → β → κ} {shown : κ → β → γ}

theorem ending_walk_gather
    (same : ∀ i share carry s, ((work i share carry).run s).ending =
      (((alone i share).run s).ending.1, ((alone i share).run s).ending.2.map fun value =>
        (next carry value, shown carry value)))
    (position : Nat) (carry : κ) (shares : List ι) (members : List (Member σ)) :
    (walk work position carry shares members).ending =
      ((walk (quiet alone) position () shares members).ending.1,
        (walk (quiet alone) position () shares members).ending.2.map fun outcome =>
          gather next shown carry outcome.2) := by
  induction members generalizing shares position carry with
  | nil =>
      cases shares with
      | nil => rfl
      | cons share shares => rfl
  | cons member members ih =>
      cases shares with
      | nil => rfl
      | cons share shares =>
          rw [ending_walk_cons, ending_walk_cons, same, ending_quiet]
          rcases ((alone position share).run member.solver).ending with ⟨reached, none | value⟩
          · rfl
          · simp only [Option.map_some, ih]
            rcases (walk (quiet alone) (position + 1) () shares members).ending with
              ⟨others, none | values⟩
            · rfl
            · rfl

theorem ending_visitCarrying
    (same : ∀ i share carry s, ((work i share carry).run s).ending =
      (((alone i share).run s).ending.1, ((alone i share).run s).ending.2.map fun value =>
        (next carry value, shown carry value)))
    (carry : κ) (shares : List ι) (b : Batch σ) :
    ((visitCarrying carry shares work).run b).ending =
      (((visit shares alone).run b).ending.1,
        ((visit shares alone).run b).ending.2.map (gather next shown carry)) := by
  have walked := ending_walk_gather same 0 carry shares b.members
  have carried : ((visitCarrying carry shares work).run b).ending =
      (⟨(walk work 0 carry shares b.members).ending.1⟩,
        (walk work 0 carry shares b.members).ending.2) := rfl
  rw [carried, walked, ending_visit, Option.map_map]
  rfl

end Gather

end DualAscent.Batch
