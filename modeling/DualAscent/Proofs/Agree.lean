import DualAscent.Proofs.Batch.View

/-!
# Procedures that see no more than a view

Two runs agree if their results are the same and, after a success, the states that they arrive at
look the same.  A procedure sees no more than a view of its state if its runs agree whenever they
start from states that look the same in this view.  A traversal then sees no more than this view of
every solver.
-/

namespace DualAscent

/-- The results are the same, and after a success the states look the same. -/
structure Outcome.Agree {Λ σ ε β υ : Type} (after : σ → υ) (first second : Outcome Λ σ ε β) :
    Prop where
  result : first.result = second.result
  states : ∀ value, first.result = .ok value → after first.state = after second.state

namespace Procedure

variable {Λ σ ε β γ τ υ ω : Type} {before : σ → τ} {middle : σ → υ} {after : σ → ω}

theorem agree_bind {first first' : Procedure Λ σ ε β} {next next' : β → Procedure Λ σ ε γ}
    {s s' : σ} (agree : Outcome.Agree middle (first.run s) (first'.run s'))
    (rest : ∀ value t t', middle t = middle t' →
      Outcome.Agree after ((next value).run t) ((next' value).run t')) :
    Outcome.Agree after ((first >>= next).run s) ((first' >>= next').run s') := by
  cases answered : (first.run s).result with
  | error e =>
      rw [run_bind_of_error answered, run_bind_of_error (agree.result.symm.trans answered)]
      exact ⟨rfl, nofun⟩
  | ok value =>
      rw [run_bind_of_ok answered, run_bind_of_ok (agree.result.symm.trans answered)]
      have others := rest value _ _ (agree.states value answered)
      exact ⟨others.result, others.states⟩

/-- A check that does not depend on the state comes out the same. -/
theorem agree_lift_bind {check : Except ε β} {next next' : β → Procedure Λ σ ε γ} {s s' : σ}
    (rest : ∀ value, Outcome.Agree after ((next value).run s) ((next' value).run s')) :
    Outcome.Agree after ((lift check >>= next).run s) ((lift check >>= next').run s') := by
  cases check with
  | error e => exact ⟨rfl, nofun⟩
  | ok value => exact rest value

/-- From states that look the same in one view the procedure gets the same result, and after a
success it arrives at states that look the same in another one. -/
def Agrees (before : σ → τ) (after : σ → υ) (procedure : Procedure Λ σ ε β) : Prop :=
  ∀ ⦃s s' : σ⦄, before s = before s' → Outcome.Agree after (procedure.run s) (procedure.run s')

/-- The view in which all states look the same. -/
def unseen (_ : σ) : Unit := ()

namespace Agrees

theorem pure (value : β) : Agrees before before (pure value : Procedure Λ σ ε β) :=
  fun _ _ same => ⟨rfl, fun _ _ => same⟩

theorem log (event : Λ) : Agrees before before (log event : Procedure Λ σ ε Unit) :=
  fun _ _ same => ⟨rfl, fun _ _ => same⟩

theorem lift (result : Except ε β) : Agrees before before (lift result : Procedure Λ σ ε β) :=
  fun _ _ same => ⟨rfl, fun _ _ => same⟩

theorem bind {first : Procedure Λ σ ε β} {next : β → Procedure Λ σ ε γ}
    (agrees : Agrees before middle first) (rest : ∀ value, Agrees middle after (next value)) :
    Agrees before after (first >>= next) :=
  fun _ _ same => agree_bind (agrees same) fun value _ _ same => rest value same

/-- What is read is the same, as far as it is used. -/
theorem read_bind {next : σ → Procedure Λ σ ε γ}
    (seen : ∀ ⦃s s' : σ⦄, before s = before s' → next s = next s')
    (rest : ∀ s, Agrees before after (next s)) : Agrees before after (read >>= next) := by
  intro s s' same
  rw [run_read_bind, run_read_bind, seen same]
  exact rest s' same

/-- A view that stays goes along. -/
theorem prod {view : σ → υ} {procedure : Procedure Λ σ ε β}
    (agrees : Agrees before after procedure) (fixed : Fixes view procedure) :
    Agrees (fun s => (before s, view s)) (fun s => (after s, view s)) procedure := by
  intro s s' same
  obtain ⟨result, states⟩ := agrees (congrArg Prod.fst same)
  refine ⟨result, fun value answered => Prod.ext (states value answered) ?_⟩
  exact (fixed s).trans ((congrArg Prod.snd same).trans (fixed s').symm)

end Agrees

end Procedure

namespace Batch

open Procedure

variable {Λ σ ε ι κ τ υ β : Type} {view : σ → τ} {b b' : Batch σ}

theorem sizes_of_views (same : views view b = views view b') : b.sizes = b'.sizes := by
  have frozen := congrArg (List.map Prod.fst) same
  rwa [views, views, List.map_map, List.map_map] at frozen

theorem length_of_views (same : views view b = views view b') :
    b.members.length = b'.members.length := by
  have lengths := congrArg List.length same
  rwa [views, views, List.length_map, List.length_map] at lengths

theorem view_of_views (same : views view b = views view b') {i : Nat} {member member' : Member σ}
    (found : b.members[i]? = some member) (found' : b'.members[i]? = some member') :
    view member.solver = view member'.solver := by
  have entry := congrArg (fun entries => entries[i]?) same
  simp only [views, List.getElem?_map, found, found', Option.map_some, Option.some.injEq] at entry
  exact congrArg Prod.snd entry

/-- If all solvers that get a share answer the same, so do the batches. -/
theorem result_walk_congr {work work' : Nat → ι → κ → Procedure Λ σ ε (κ × β)} (shares : List ι)
    {members members' : List (Member σ)} (aligned : members.length = members'.length)
    (position : Nat) (carry : κ)
    (same : ∀ i share carry member member', shares[i]? = some share → members[i]? = some member →
      members'[i]? = some member' → ((work (position + i) share carry).run member.solver).result =
        ((work' (position + i) share carry).run member'.solver).result) :
    (walk work position carry shares members).result =
      (walk work' position carry shares members').result := by
  induction members generalizing shares members' position carry with
  | nil =>
      obtain rfl : members' = [] := List.length_eq_zero_iff.mp aligned.symm
      cases shares with
      | nil => rfl
      | cons share shares => rfl
  | cons member members ih =>
      cases members' with
      | nil => cases aligned
      | cons member' members' =>
          cases shares with
          | nil => rfl
          | cons share shares =>
              have here := same 0 share carry member member' rfl rfl rfl
              rw [Nat.add_zero] at here
              rw [walk, walk]
              dsimp only
              rw [← here]
              cases ((work position share carry).run member.solver).result with
              | error e => rfl
              | ok outcome =>
                  refine congrArg (Except.map _) (ih shares (Nat.succ.inj aligned) _ outcome.1
                    fun i share carry member member' shares_i members_i members'_i => ?_)
                  have there :=
                    same (i + 1) share carry member member' shares_i members_i members'_i
                  rwa [← Nat.add_assoc, Nat.add_right_comm] at there

/-- In a traversal that succeeds, every solver answers that gets a share. -/
theorem ok_of_walk {work : Nat → ι → κ → Procedure Λ σ ε (κ × β)} {shares : List ι}
    {members : List (Member σ)} {position : Nat} {carry : κ} {outcome : κ × List β}
    (ok : (walk work position carry shares members).result = .ok outcome) {i : Nat} {share : ι}
    {member : Member σ} (shares_i : shares[i]? = some share)
    (members_i : members[i]? = some member) :
    ∃ carried part, ((work (position + i) share carried).run member.solver).result = .ok part := by
  induction members generalizing shares position carry outcome i with
  | nil => cases members_i
  | cons first members ih =>
      cases shares with
      | nil => cases shares_i
      | cons head shares =>
          rw [walk] at ok
          dsimp only at ok
          cases here : ((work position head carry).run first.solver).result with
          | error e =>
              rw [here] at ok
              cases ok
          | ok answer =>
              rw [here] at ok
              cases i with
              | zero =>
                  cases shares_i
                  cases members_i
                  exact ⟨carry, answer, here⟩
              | succ i =>
                  cases beyond : (walk work (position + 1) answer.1 shares members).result with
                  | error e =>
                      simp only [beyond] at ok
                      cases ok
                  | ok rest =>
                      obtain ⟨carried, part, answered⟩ := ih beyond shares_i members_i
                      rw [Nat.add_right_comm, Nat.add_assoc] at answered
                      exact ⟨carried, part, answered⟩

/-- If all solvers answer their shares the same, visits collect the same. -/
theorem result_visit_congr {work work' : Nat → ι → Procedure Λ σ ε β} (shares : List ι)
    (aligned : b.members.length = b'.members.length)
    (same : ∀ i share member member', shares[i]? = some share → b.members[i]? = some member →
      b'.members[i]? = some member' → ((work i share).run member.solver).result =
        ((work' i share).run member'.solver).result) :
    ((visit shares work).run b).result = ((visit shares work').run b').result := by
  have walked : (walk (quiet work) 0 () shares b.members).result =
      (walk (quiet work') 0 () shares b'.members).result := by
    refine result_walk_congr shares aligned 0 ()
      fun i share _ member member' share_i found found' => ?_
    rw [Nat.zero_add]
    show (((fun value => ((), value)) <$> work i share).run member.solver).result =
      (((fun value => ((), value)) <$> work' i share).run member'.solver).result
    rw [result_map, result_map, same i share member member' share_i found found']
  show ((Prod.snd <$> visitCarrying () shares (quiet work)).run b).result =
    ((Prod.snd <$> visitCarrying () shares (quiet work')).run b').result
  rw [result_map, result_map]
  exact congrArg (Except.map Prod.snd) walked

theorem agrees_visit (after : σ → υ) {work : Nat → ι → Procedure Λ σ ε β}
    (agrees : ∀ i share, Agrees view after (work i share)) (shares : List ι) :
    Agrees (views view) unseen (visit shares work) := by
  intro b b' same
  refine ⟨result_visit_congr shares (length_of_views same)
    fun i share member member' _ found found' => ?_, fun _ _ => rfl⟩
  exact (agrees i share (view_of_views same found found')).result

section Engine

variable {α : Type} [Zero α] [Engine α σ]

theorem agrees_attempt {request : Request α β} {after : σ → υ}
    (agrees : Agrees view after (Engine.perform request)) (i : Nat) (context : Context α) :
    Agrees view after (attempt i context request) := by
  intro s s' same
  obtain ⟨result, states⟩ := agrees same
  rw [Procedure.run, Procedure.run, attempt, attempt, ← result]
  cases answered : ((Engine.perform request).run s).result with
  | ok value => exact ⟨rfl, fun _ _ => states value answered⟩
  | error source =>
      cases source with
      | misuse cause => exact ⟨rfl, fun _ ok => by cases ok⟩
      | _ => exact ⟨rfl, fun _ ok => by cases ok⟩

end Engine

end Batch

end DualAscent
