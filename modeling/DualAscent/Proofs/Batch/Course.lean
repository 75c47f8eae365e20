import DualAscent.Proofs.Batch.Walk

/-!
# How far a traversal gets

What a traversal leaves behind does not depend on what solvers answer, but only on what each of them
does with its own share and on whether it fails.  Either all do their parts, or the traversal stops
at the first part that fails: the solvers before it are left as after their parts, and those behind
it as they were.
-/

namespace DualAscent

variable {Λ σ ε ι κ β γ : Type}

/-- The state afterwards, and the failure if there is one. -/
def Outcome.fate (outcome : Outcome Λ σ ε β) : σ × Except ε Unit :=
  (outcome.state, outcome.result.map fun _ => ())

theorem forget_map (f : β → γ) (result : Except ε β) :
    (result.map f).map (fun _ => ()) = result.map fun _ => () := by
  cases result with
  | error e => rfl
  | ok value => rfl

theorem Outcome.fate_unit (outcome : Outcome Λ σ ε Unit) :
    outcome.fate = (outcome.state, outcome.result) := by
  rw [fate]
  cases outcome.result with
  | error e => rfl
  | ok _ => rfl

namespace Procedure

theorem fate_bind (procedure : Procedure Λ σ ε β) (next : β → Procedure Λ σ ε γ) (s : σ) :
    ((procedure >>= next).run s).fate =
      match (procedure.run s).result with
      | .error e => ((procedure.run s).state, .error e)
      | .ok value => ((next value).run (procedure.run s).state).fate := by
  rw [run_bind]
  cases (procedure.run s).result with
  | error e => rfl
  | ok value => rfl

theorem fate_map (f : β → γ) (procedure : Procedure Λ σ ε β) (s : σ) :
    ((f <$> procedure).run s).fate = (procedure.run s).fate := by
  rw [Outcome.fate, state_map, result_map, forget_map, Outcome.fate]

/-- What follows shares its fate. -/
theorem fate_bind_congr {procedure : Procedure Λ σ ε β} {next next' : β → Procedure Λ σ ε γ}
    (rest : ∀ value t, ((next value).run t).fate = ((next' value).run t).fate) (s : σ) :
    ((procedure >>= next).run s).fate = ((procedure >>= next').run s).fate := by
  rw [fate_bind, fate_bind]
  cases (procedure.run s).result with
  | error e => rfl
  | ok value => exact rest value _

theorem fate_bind_of_quiet {procedure : Procedure Λ σ ε β} {next : β → Procedure Λ σ ε γ}
    (quiet : ∀ value t, ((next value).run t).fate = (t, .ok ())) (s : σ) :
    ((procedure >>= next).run s).fate = (procedure.run s).fate := by
  rw [fate_bind, Outcome.fate]
  cases (procedure.run s).result with
  | error e => rfl
  | ok value => exact quiet value _

end Procedure

namespace Batch

open Procedure

/-- What a traversal has the solver at a position do: nothing, if there is no share for it. -/
def assigned (shares : List ι) (work : Nat → ι → Procedure Λ σ ε β) (i : Nat) :
    Procedure Λ σ ε Unit :=
  match shares[i]? with
  | some share => (fun _ => ()) <$> work i share
  | none => pure ()

variable (part : Nat → Procedure Λ σ ε Unit)

/-- The solver at a position after its part. -/
def moved (i : Nat) (member : Member σ) : Member σ :=
  { member with solver := ((part i).run member.solver).state }

/-- The solvers when so many of them have done their parts. -/
def reached (count : Nat) (members : List (Member σ)) : List (Member σ) :=
  members.mapIdx fun i member => if i < count then moved part i member else member

/-- So many parts succeed. -/
def Passes (count : Nat) (members : List (Member σ)) : Prop :=
  ∀ i < count, ∀ member, members[i]? = some member →
    ((part i).run member.solver).result = .ok ()

/-- How solvers are left by a traversal, and its failure if there is one. -/
inductive Course (members : List (Member σ)) : List (Member σ) × Except ε Unit → Prop
  /-- A part fails, and all parts before it succeed. -/
  | stopped {i : Nat} {member : Member σ} {e : ε} (found : members[i]? = some member)
      (before : Passes part i members)
      (failed : ((part i).run member.solver).result = .error e) :
      Course members (reached part (i + 1) members, .error e)
  /-- All parts succeed. -/
  | finished (passes : Passes part members.length members) :
      Course members (reached part members.length members, .ok ())

variable {part}

theorem reached_zero (members : List (Member σ)) : reached part 0 members = members :=
  List.ext_getElem (by simp [reached]) (by simp [reached])

theorem reached_succ_cons (count : Nat) (member : Member σ) (members : List (Member σ)) :
    reached part (count + 1) (member :: members) =
      moved part 0 member :: reached (fun i => part (i + 1)) count members := by
  rw [reached, List.mapIdx_cons]
  refine congrArg₂ List.cons (if_pos (Nat.succ_pos count)) ?_
  exact List.ext_getElem (by simp [reached]) (by simp [reached, moved])

/-- All solvers after their parts. -/
def completed (part : Nat → Procedure Λ σ ε Unit) (b : Batch σ) : Batch σ :=
  ⟨b.members.mapIdx (moved part)⟩

theorem reached_length (b : Batch σ) :
    reached part b.members.length b.members = (completed part b).members := by
  refine List.ext_getElem (by simp [reached, completed]) fun i here _ => ?_
  rw [reached, List.length_mapIdx] at here
  simp only [reached, completed, List.getElem_mapIdx, if_pos here]

theorem getElem?_reached_of_lt {count i : Nat} (below : i < count) (b : Batch σ) :
    (reached part count b.members)[i]? = (completed part b).members[i]? := by
  simp only [reached, completed, List.getElem?_mapIdx, if_pos below]

theorem getElem?_completed_congr {i : Nat} {b b' : Batch σ}
    (same : b'.members[i]? = b.members[i]?) :
    (completed part b').members[i]? = (completed part b).members[i]? := by
  simp only [completed, List.getElem?_mapIdx, same]

theorem getElem?_reached_of_le {count i : Nat} (beyond : count ≤ i) (members : List (Member σ)) :
    (reached part count members)[i]? = members[i]? := by
  simp only [reached, List.getElem?_mapIdx, if_neg (Nat.not_lt.mpr beyond), Option.map_id']

theorem Passes.cons {count : Nat} {member : Member σ} {members : List (Member σ)}
    (here : ((part 0).run member.solver).result = .ok ())
    (rest : Passes (fun i => part (i + 1)) count members) :
    Passes part (count + 1) (member :: members) := by
  intro i below other found
  cases i with
  | zero =>
      cases found
      exact here
  | succ i => exact rest i (Nat.lt_of_succ_lt_succ below) other found

theorem Course.of_error {member : Member σ} {members : List (Member σ)} {e : ε}
    (failed : ((part 0).run member.solver).result = .error e) :
    Course part (member :: members) (moved part 0 member :: members, .error e) := by
  have found : (member :: members)[0]? = some member := rfl
  have alone := Course.stopped found (fun i below => absurd below (Nat.not_lt_zero i)) failed
  rwa [reached_succ_cons, reached_zero] at alone

theorem Course.cons {member : Member σ} {members : List (Member σ)}
    {left : List (Member σ) × Except ε Unit}
    (here : ((part 0).run member.solver).result = .ok ())
    (rest : Course (fun i => part (i + 1)) members left) :
    Course part (member :: members) (moved part 0 member :: left.1, left.2) := by
  cases rest with
  | stopped found before failed =>
      rw [← reached_succ_cons]
      exact .stopped found (.cons here before) failed
  | finished passes =>
      rw [← reached_succ_cons]
      exact .finished (.cons here passes)

/-- The first part that fails decides the failure. -/
theorem Course.result_of_first {i : Nat} {member : Member σ} {members : List (Member σ)} {e : ε}
    {left : List (Member σ) × Except ε Unit} (course : Course part members left)
    (found : members[i]? = some member) (before : Passes part i members)
    (failed : ((part i).run member.solver).result = .error e) : left.2 = .error e := by
  cases course with
  | @stopped j other _ found' before' failed' =>
      rcases Nat.lt_trichotomy i j with earlier | rfl | later
      · cases failed.symm.trans (before' i earlier member found)
      · cases found.symm.trans found'
        cases failed.symm.trans failed'
        rfl
      · cases failed'.symm.trans (before j later other found')
  | finished passes =>
      have within : i < members.length := (List.getElem?_eq_some_iff.mp found).1
      cases failed.symm.trans (passes i within member found)

theorem Course.of_idle (idle : ∀ i, part i = pure ()) (members : List (Member σ)) :
    Course part members (members, .ok ()) := by
  have stays : reached part members.length members = members := by
    refine List.ext_getElem List.length_mapIdx fun i _ within => ?_
    simp only [reached, List.getElem_mapIdx, if_pos within, moved, idle]
    rfl
  have passes : Passes part members.length members := by
    intro i _ member _
    rw [idle]
    rfl
  have course := Course.finished passes
  rwa [stays] at course

/-- A traversal takes the course of its parts, whatever it carries. -/
theorem course_walk {work : Nat → ι → κ → Procedure Λ σ ε (κ × β)} {shares : List ι}
    {position : Nat}
    (same : ∀ i share carry s, shares[i]? = some share →
      ((work (position + i) share carry).run s).fate = ((part i).run s).fate)
    (idle : ∀ i, shares[i]? = none → part i = pure ()) (carry : κ) (members : List (Member σ)) :
    Course part members (walk work position carry shares members).fate := by
  induction members generalizing part shares position carry with
  | nil =>
      have ended : (walk work position carry shares []).fate = ([], .ok ()) := by
        cases shares with
        | nil => rfl
        | cons share shares => rfl
      rw [ended]
      exact .finished fun i below => absurd below (Nat.not_lt_zero i)
  | cons member members ih =>
      cases shares with
      | nil => exact .of_idle (fun i => idle i rfl) (member :: members)
      | cons share shares =>
          have here := (same 0 share carry member.solver rfl).trans (Outcome.fate_unit _)
          have state : ((work position share carry).run member.solver).state =
              ((part 0).run member.solver).state := congrArg Prod.fst here
          have result : ((work position share carry).run member.solver).result.map (fun _ => ()) =
              ((part 0).run member.solver).result := congrArg Prod.snd here
          rw [Outcome.fate, walk]
          dsimp only
          rw [Nat.add_zero, state]
          cases answered : ((work position share carry).run member.solver).result with
          | error e =>
              rw [answered] at result
              exact .of_error result.symm
          | ok outcome =>
              obtain ⟨next, value⟩ := outcome
              rw [answered] at result
              have rest : Course (fun i => part (i + 1)) members
                  (walk work (position + 1) next shares members).fate := by
                refine ih (fun i share carry s found => ?_) (fun i absent => idle (i + 1) absent) _
                have there := same (i + 1) share carry s found
                rwa [← Nat.add_assoc, Nat.add_right_comm] at there
              rw [forget_map]
              exact .cons result.symm rest

theorem course_visitCarrying (shares : List ι) (work : Nat → ι → κ → Procedure Λ σ ε (κ × β))
    (alone : Nat → ι → Procedure Λ σ ε γ)
    (same : ∀ i share carry s, ((work i share carry).run s).fate = ((alone i share).run s).fate)
    (carry : κ) (b : Batch σ) :
    let fate := ((visitCarrying carry shares work).run b).fate
    Course (assigned shares alone) b.members (fate.1.members, fate.2) := by
  have course : Course (assigned shares alone) b.members
      (walk work 0 carry shares b.members).fate := by
    refine course_walk (fun i share carry s found => ?_) (fun i absent => ?_) carry _
    · rw [Nat.zero_add, same, assigned, found]
      exact (fate_map _ _ s).symm
    · rw [assigned, absent]
  exact course

theorem course_visit (shares : List ι) (work : Nat → ι → Procedure Λ σ ε β) (b : Batch σ) :
    let fate := ((visit shares work).run b).fate
    Course (assigned shares work) b.members (fate.1.members, fate.2) := by
  have carrying : visit shares work = Prod.snd <$> visitCarrying () shares (quiet work) := rfl
  rw [carrying, fate_map]
  exact course_visitCarrying shares (quiet work) work (fun i share _ s => fate_map _ _ s) () b

theorem fate_attempt_congr {α : Type} [Zero α] [Engine α σ] {request : Request α β}
    {request' : Request α γ} {s : σ} (routine : request.routine = request'.routine)
    (same : ((Engine.perform request).run s).fate = ((Engine.perform request').run s).fate)
    (i : Nat) (context : Context α) :
    ((attempt i context request).run s).fate = ((attempt i context request').run s).fate := by
  have state : ((Engine.perform request).run s).state = ((Engine.perform request').run s).state :=
    congrArg Prod.fst same
  have result : ((Engine.perform request).run s).result.map (fun _ => ()) =
      ((Engine.perform request').run s).result.map fun _ => () := congrArg Prod.snd same
  rw [Procedure.run, Procedure.run, attempt, attempt, state, routine]
  cases answered : ((Engine.perform request).run s).result with
  | error source =>
      have failed : ((Engine.perform request').run s).result = .error source := by
        rw [answered] at result
        exact map_eq_error_iff.mp result.symm
      rw [failed]
      cases source with
      | misuse cause => rfl
      | _ => rfl
  | ok value =>
      cases answered' : ((Engine.perform request').run s).result with
      | error source =>
          rw [answered, answered'] at result
          cases result
      | ok value' => rfl

section Engine

variable {α : Type} [Zero α] [Engine α σ]

/-- The procedure fails only because an engine does, for which it names the solver at a position, or
because a precondition is violated. -/
def Blames (i : Nat) (procedure : Procedure (Event α) σ (Error α) β) : Prop :=
  ∀ s e, (procedure.run s).result = .error e → (∃ cause, e = .misuse cause) ∨
    ∃ (routine : Routine) (context : Context α) (source : EngineError) (answer : Type)
      (request : Request α answer) (t : σ), e = .engine i routine context source ∧
        request.routine = routine ∧ ((Engine.perform request).run t).result = .error source

namespace Blames

theorem pure (i : Nat) (value : β) : Blames i (pure value : Procedure (Event α) σ (Error α) β) := by
  rintro _ _ ⟨⟩

theorem log (i : Nat) (event : Event α) :
    Blames i (log event : Procedure (Event α) σ (Error α) Unit) := by
  rintro _ _ ⟨⟩

theorem bind {i : Nat} {procedure : Procedure (Event α) σ (Error α) β}
    {next : β → Procedure (Event α) σ (Error α) γ} (first : Blames i procedure)
    (rest : ∀ value, Blames i (next value)) : Blames i (procedure >>= next) := by
  intro s e failed
  cases answered : (procedure.run s).result with
  | error e' =>
      rw [result_bind_of_error answered] at failed
      cases failed
      exact first s e answered
  | ok value =>
      rw [run_bind_of_ok answered] at failed
      exact rest value _ e failed

theorem map {i : Nat} {procedure : Procedure (Event α) σ (Error α) β} (f : β → γ)
    (blames : Blames i procedure) : Blames i (f <$> procedure) :=
  blames.bind fun value => .pure i (f value)

theorem attempt (i : Nat) (context : Context α) (request : Request α β) :
    Blames i (attempt i context request : Procedure (Event α) σ (Error α) β) := by
  intro s e failed
  rw [Procedure.run, Batch.attempt] at failed
  cases answered : ((Engine.perform request).run s).result with
  | ok value =>
      rw [answered] at failed
      cases failed
  | error source =>
      rw [answered] at failed
      cases source with
      | misuse cause =>
          cases failed
          exact .inl ⟨cause, rfl⟩
      | _ =>
          cases failed
          exact .inr ⟨_, _, _, β, request, s, rfl, rfl, answered⟩

theorem assigned {work : Nat → ι → Procedure (Event α) σ (Error α) β}
    (blames : ∀ i share, Blames i (work i share)) (shares : List ι) (i : Nat) :
    Blames i (assigned shares work i) := by
  rw [Batch.assigned]
  split
  · exact (blames i _).map _
  · exact .pure i ()

end Blames

end Engine

end Batch

end DualAscent
