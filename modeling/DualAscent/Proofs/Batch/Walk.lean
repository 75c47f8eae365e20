import DualAscent.Batch
import DualAscent.Proofs.Procedure
import Mathlib.Data.List.Forall2

/-!
# Going through a batch

A traversal with a share for every solver succeeds exactly if each solver's procedure does,
started with the value that the ones before have carried up to it.  It leaves every solver in the
state that its own procedure reached.
-/

namespace DualAscent.Batch

open Procedure

variable {Λ σ ε ι κ β : Type}

/-- Every solver served its share: the values carried in and out, the solvers before and after,
and what they returned. -/
inductive Served (work : Nat → ι → κ → Procedure Λ σ ε (κ × β)) :
    Nat → κ → List ι → List (Member σ) → κ → List (Member σ) → List β → Prop
  /-- There is nobody to serve. -/
  | nil (position : Nat) (carry : κ) : Served work position carry [] [] carry [] []
  /-- The first solver is served, and then all others. -/
  | cons {position : Nat} {carry next last : κ} {share : ι} {shares : List ι}
      {member : Member σ} {members moved : List (Member σ)} {value : β} {values : List β}
      (here : ((work position share carry).run member.solver).result = .ok (next, value))
      (rest : Served work (position + 1) next shares members last moved values) :
      Served work position carry (share :: shares) (member :: members) last
        (⟨((work position share carry).run member.solver).state, member.frozen⟩ :: moved)
        (value :: values)

variable {work : Nat → ι → κ → Procedure Λ σ ε (κ × β)}

/-- A traversal that serves everybody succeeds. -/
theorem Served.walk_eq {position : Nat} {carry last : κ} {shares : List ι}
    {members moved : List (Member σ)} {values : List β}
    (served : Served work position carry shares members last moved values) :
    (walk work position carry shares members).state = moved ∧
      (walk work position carry shares members).result = .ok (last, values) := by
  induction served with
  | nil => exact ⟨rfl, rfl⟩
  | cons here rest ih =>
      simp only [walk, here]
      exact ⟨congrArg _ ih.1, by rw [ih.2]; rfl⟩

/-- A traversal that succeeds has served everybody. -/
theorem served_of_walk {shares : List ι} {members : List (Member σ)}
    (aligned : shares.length = members.length) {position : Nat} {carry last : κ} {values : List β}
    (ok : (walk work position carry shares members).result = .ok (last, values)) :
    Served work position carry shares members last
      (walk work position carry shares members).state values := by
  induction members generalizing shares position carry values with
  | nil =>
      obtain rfl : shares = [] := List.length_eq_zero_iff.mp aligned
      cases ok
      exact .nil position _
  | cons member members ih =>
      cases shares with
      | nil => cases aligned
      | cons share shares =>
          simp only [walk] at ok ⊢
          cases here : ((work position share carry).run member.solver).result with
          | error e =>
              rw [here] at ok
              cases ok
          | ok outcome =>
              obtain ⟨next, value⟩ := outcome
              rw [here] at ok
              cases beyond : (walk work (position + 1) next shares members).result with
              | error e =>
                  simp only [beyond] at ok
                  cases ok
              | ok rest =>
                  simp only [beyond] at ok
                  cases ok
                  exact .cons here (ih (Nat.succ.inj aligned) beyond)

/-- A traversal depends only on what every solver does with its own share. -/
theorem walk_congr {work' : Nat → ι → κ → Procedure Λ σ ε (κ × β)} {shares : List ι}
    {members : List (Member σ)} {position : Nat} {carry : κ}
    (same : ∀ i share carry member, shares[i]? = some share → members[i]? = some member →
      (work (position + i) share carry).run member.solver =
        (work' (position + i) share carry).run member.solver) :
    walk work position carry shares members = walk work' position carry shares members := by
  induction members generalizing shares position carry with
  | nil =>
      cases shares with
      | nil => rfl
      | cons share shares => rfl
  | cons member members ih =>
      cases shares with
      | nil => rfl
      | cons share shares =>
          have here := same 0 share carry member rfl rfl
          have rest (next : κ) : walk work (position + 1) next shares members =
              walk work' (position + 1) next shares members := by
            refine ih fun i share carry member shares_i members_i => ?_
            have there := same (i + 1) share carry member shares_i members_i
            rwa [← Nat.add_assoc, Nat.add_right_comm] at there
          rw [Nat.add_zero] at here
          simp only [walk, here, rest]

theorem Served.length_eq {position : Nat} {carry last : κ} {shares : List ι}
    {members moved : List (Member σ)} {values : List β}
    (served : Served work position carry shares members last moved values) :
    values.length = members.length := by
  induction served with
  | nil => rfl
  | cons here rest ih => exact congrArg Nat.succ ih

/-- What was carried up to each solver. -/
theorem Served.exists_carried {position : Nat} {carry last : κ} {shares : List ι}
    {members moved : List (Member σ)} {values : List β}
    (served : Served work position carry shares members last moved values) :
    ∃ carried : Nat → κ, carried 0 = carry ∧ carried members.length = last ∧
      ∀ (i : Nat) (share : ι) (member : Member σ), shares[i]? = some share →
        members[i]? = some member → ∃ value, values[i]? = some value ∧
          ((work (position + i) share (carried i)).run member.solver).result =
            .ok (carried (i + 1), value) := by
  induction served with
  | nil position carry => exact ⟨fun _ => carry, rfl, rfl, nofun⟩
  | @cons position carry _ _ _ _ _ _ _ _ _ here rest ih =>
      obtain ⟨carried, start, finish, each⟩ := ih
      refine ⟨fun i => i.casesOn carry carried, rfl, finish,
        fun i share member shares_i members_i => ?_⟩
      cases i with
      | zero =>
          cases shares_i
          cases members_i
          rw [← start] at here
          exact ⟨_, rfl, here⟩
      | succ i =>
          obtain ⟨value, found, ok⟩ := each i share member shares_i members_i
          rw [Nat.add_right_comm, Nat.add_assoc] at ok
          exact ⟨value, found, ok⟩

/-- Work with nothing to carry. -/
def quiet (work : Nat → ι → Procedure Λ σ ε β) (i : Nat) (share : ι) (_ : Unit) :
    Procedure Λ σ ε (Unit × β) := do
  return ((), ← work i share)

theorem yields_quiet_iff {work : Nat → ι → Procedure Λ σ ε β} {i : Nat} {share : ι} {s : σ}
    {value : β} :
    ((quiet work i share ()).run s).result = .ok ((), value) ↔
      ((work i share).run s).result = .ok value := by
  rw [quiet, result_bind_eq_ok_iff]
  constructor
  · rintro ⟨part, ok, same⟩
    cases same
    exact ok
  · intro ok
    exact ⟨value, ok, rfl⟩

theorem state_quiet (work : Nat → ι → Procedure Λ σ ε β) (i : Nat) (share : ι) (s : σ) :
    ((quiet work i share ()).run s).state = ((work i share).run s).state := by
  rw [quiet, run_bind]
  cases ((work i share).run s).result with
  | error e => rfl
  | ok value => rfl

section Cons

variable {work : Nat → ι → Procedure Λ σ ε β} {position : Nat} {share : ι} {member : Member σ}

theorem result_walk_quiet_of_error {e : ε}
    (failed : ((work position share).run member.solver).result = .error e) (shares : List ι)
    (members : List (Member σ)) :
    (walk (quiet work) position () (share :: shares) (member :: members)).result = .error e := by
  have here : ((quiet work position share ()).run member.solver).result = .error e :=
    result_bind_of_error failed
  rw [walk]
  dsimp only
  rw [here]

theorem walk_quiet_of_ok {value : β}
    (ok : ((work position share).run member.solver).result = .ok value) (shares : List ι)
    (members : List (Member σ)) :
    let outcome := walk (quiet work) position () (share :: shares) (member :: members)
    let rest := walk (quiet work) (position + 1) () shares members
    outcome.state = ⟨((work position share).run member.solver).state, member.frozen⟩ :: rest.state ∧
      outcome.result = rest.result.map fun served => (served.1, value :: served.2) := by
  have here := yields_quiet_iff.mpr ok
  intro outcome rest
  simp only [outcome, walk, here]
  exact ⟨congrArg (fun s => Member.mk s member.frozen :: rest.state) (state_quiet work _ _ _), rfl⟩

end Cons

variable {shares : List ι} {members : List (Member σ)} {visiting : Nat → ι → Procedure Λ σ ε β}

theorem run_visit_congr {visiting' : Nat → ι → Procedure Λ σ ε β} {b : Batch σ}
    (same : ∀ i share member, shares[i]? = some share → b.members[i]? = some member →
      (visiting i share).run member.solver = (visiting' i share).run member.solver) :
    (visit shares visiting).run b = (visit shares visiting').run b := by
  refine run_bind_congr ?_ fun _ => rfl
  have walked : walk (quiet visiting) 0 () shares b.members =
      walk (quiet visiting') 0 () shares b.members := by
    refine walk_congr fun i share _ member shares_i members_i => ?_
    rw [Nat.zero_add]
    exact run_bind_congr (same i share member shares_i members_i) fun _ => rfl
  exact congrArg (fun outcome : Outcome Λ (List (Member σ)) ε (Unit × List β) =>
    (⟨outcome.events, ⟨outcome.state⟩, outcome.result⟩ : Outcome Λ (Batch σ) ε _)) walked

theorem yields_visit {b : Batch σ} {parts : List β}
    (walked : (walk (quiet visiting) 0 () shares b.members).result = .ok ((), parts)) :
    (visit shares visiting).Yields b
      ⟨(walk (quiet visiting) 0 () shares b.members).state⟩ parts := by
  have carrying : (visitCarrying () shares (quiet visiting)).Yields b
      ⟨(walk (quiet visiting) 0 () shares b.members).state⟩ ((), parts) := ⟨rfl, walked⟩
  exact carrying.bind (.pure parts _)

theorem Served.visit {b : Batch σ} {moved : List (Member σ)} {parts : List β}
    (served : Served (quiet visiting) 0 () shares b.members () moved parts) :
    (visit shares visiting).Yields b ⟨moved⟩ parts := by
  obtain ⟨reached, walked⟩ := served.walk_eq
  exact reached ▸ yields_visit walked

theorem served_of_visit {b : Batch σ} (aligned : shares.length = b.members.length)
    {parts : List β} (ok : ((Batch.visit shares visiting).run b).result = .ok parts) :
    ∃ moved, Served (quiet visiting) 0 () shares b.members () moved parts := by
  obtain ⟨⟨_, results⟩, walked, same⟩ := result_bind_eq_ok_iff.mp ok
  cases same
  exact ⟨_, served_of_walk aligned walked⟩

theorem Served.forall₂ {R : ι → β → Prop}
    (each : ∀ i share s value, ((visiting i share).run s).result = .ok value → R share value)
    {position : Nat} {moved : List (Member σ)} {parts : List β}
    (served : Served (quiet visiting) position () shares members () moved parts) :
    List.Forall₂ R shares parts := by
  induction shares generalizing position members moved parts with
  | nil =>
      cases served
      exact .nil
  | cons share shares ih =>
      cases served with
      | cons here rest => exact .cons (each _ _ _ _ (yields_quiet_iff.mp here)) (ih rest)

/-- Every solver was served its share. -/
theorem Served.get {position : Nat} {moved : List (Member σ)} {parts : List β}
    (served : Served (quiet visiting) position () shares members () moved parts) {i : Nat}
    {share : ι} {member : Member σ} (shares_i : shares[i]? = some share)
    (members_i : members[i]? = some member) :
    ∃ part, parts[i]? = some part ∧
      ((visiting (position + i) share).run member.solver).result = .ok part ∧
      moved[i]? =
        some ⟨((visiting (position + i) share).run member.solver).state, member.frozen⟩ := by
  induction members generalizing shares position moved parts i with
  | nil => cases members_i
  | cons first members ih =>
      cases served with
      | cons here rest =>
          cases i with
          | zero =>
              cases shares_i
              cases members_i
              refine ⟨_, rfl, yields_quiet_iff.mp here, ?_⟩
              exact congrArg (fun state => some (Member.mk state member.frozen))
                (state_quiet visiting position _ _)
          | succ i =>
              obtain ⟨part, found, ok, state⟩ := ih rest shares_i members_i
              rw [Nat.add_right_comm, Nat.add_assoc] at ok state
              exact ⟨part, found, ok, state⟩

/-- If each solver can be served its share, then all of them one after the other. -/
theorem served_of_each (aligned : shares.length = members.length) (position : Nat)
    (each : ∀ i share member, shares[i]? = some share → members[i]? = some member →
      ∃ part, ((visiting (position + i) share).run member.solver).result = .ok part) :
    ∃ moved parts, Served (quiet visiting) position () shares members () moved parts := by
  induction members generalizing shares position with
  | nil =>
      obtain rfl : shares = [] := List.length_eq_zero_iff.mp aligned
      exact ⟨[], [], .nil position ()⟩
  | cons member members ih =>
      cases shares with
      | nil => cases aligned
      | cons share shares =>
          obtain ⟨part, ok⟩ := each 0 share member rfl rfl
          obtain ⟨moved, parts, rest⟩ := ih (Nat.succ.inj aligned) (position + 1)
            fun i share member shares_i members_i => by
              rw [Nat.add_assoc, Nat.add_comm 1]
              exact each (i + 1) share member shares_i members_i
          exact ⟨_, _, .cons (yields_quiet_iff.mpr ok) rest⟩

theorem run_attempt_congr {α σ β : Type} [Zero α] [Engine α σ]
    {request request' : Request α β} {s : σ} (routine : request.routine = request'.routine)
    (same : (Engine.perform request).run s = (Engine.perform request').run s) (i : Nat)
    (context : Context α) :
    (attempt i context request).run s = (attempt i context request').run s := by
  simp only [Procedure.run, attempt] at same ⊢
  rw [same, routine]

theorem yields_attempt {α σ β : Type} [Zero α] [Engine α σ] {request : Request α β} {s reached : σ}
    {value : β} (i : Nat) (context : Context α)
    (served : (Engine.perform request).Yields s reached value) :
    (attempt i context request).Yields s reached value := by
  obtain ⟨state_eq, result_eq⟩ := served
  have run_eq : (attempt i context request).run s =
      ⟨((Engine.perform request).run s).events, reached, .ok value⟩ := by
    rw [Procedure.run, attempt, result_eq, state_eq]
  exact .of_run run_eq

end DualAscent.Batch
