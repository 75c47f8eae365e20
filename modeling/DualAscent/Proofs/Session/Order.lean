import DualAscent.Proofs.Exact
import DualAscent.Proofs.Operation.Recorded
import DualAscent.Proofs.Session.Account
import Mathlib.Logic.Relation

/-!
# Replays in reverse

Dual ascents on one batch may alternate in any way with other operations, which may fail.  As long
as their gradients are sent back the newest first, the runs that the solvers wait with are those
of the unused records, and no replay is ever refused.
-/

namespace DualAscent.Session

open Procedure Batch Operation

variable {α : Type} [Scalar α] [Zero α] [Add α] [Sub α] [Mul α] [Neg α]

/-- Gradients go back through the newest unused dual ascent, and have the right format and size.
Nothing is asked of other calls. -/
def Disciplined {β : Type} (s : Session α (Solver α)) : Command α β → Prop
  | .backward of gradients => ∀ record, s.record? of = some (.ascent record) →
      s.ascents.head? = some (of, record) ∧ Operation.Accepts record gradients
  | _ => True

/-- A dual ascent returns, with an answer or an error, and does not break off on its way through
the batch. -/
def Returns {β : Type} (s : Session α (Solver α)) : Command α β → Prop
  | .ascend inputs settings => ∀ cause,
      ((Operation.ascend inputs settings : Batch.Work α (Solver α) _).run s.batch).result ≠
        .error (.misuse cause)
  | _ => True

/-- A disciplined call leads from one session to the next, whatever comes of it. -/
inductive Turn (s : Session α (Solver α)) : Session α (Solver α) → Prop
  /-- The call, and the label for its record. -/
  | call {β : Type} (label : Nat) (command : Command α β) (disciplined : s.Disciplined command) :
      Turn s ((execute label command).run s).state

/-- A disciplined call that returns leads from one session to the next. -/
inductive WholeTurn (s : Session α (Solver α)) : Session α (Solver α) → Prop
  /-- The call, and the label for its record. -/
  | call {β : Type} (label : Nat) (command : Command α β) (disciplined : s.Disciplined command)
      (returns : s.Returns command) : WholeTurn s ((execute label command).run s).state

/-- How a session gets on in a turn: nothing changes in its account, or a dual ascent is entered,
or the newest one is settled. -/
inductive Advance (s s' : Session α (Solver α)) : Prop
  /-- The account stays. -/
  | stay (same : s'.account = s.account)
  /-- Every solver has a further run. -/
  | enter (label : Nat) (record : AscentRecord α) (belongs : Belongs s.batch record)
      (runs : ledgers s'.batch = entered (ledgers s.batch) record.realized)
      (newest : s'.ascents = (label, record) :: s.ascents)
  /-- Every solver has replayed its latest run. -/
  | settle (label : Nat) (record : AscentRecord α)
      (newest : s.ascents = (label, record) :: s'.ascents)
      (replays : ledgers s'.batch = settled record (ledgers s.batch))

/-- The runs that a solver has in the unused records, the latest first. -/
def runs (ascents : List (Nat × AscentRecord α)) (i : Nat) : List Nat :=
  ascents.map fun ascent => ascent.2.realized.getD i 0

/-- The runs that the solvers wait with are those of the unused records, on top of those that they
started with. -/
structure InOrder (start s : Session α (Solver α)) : Prop where
  pending : s.batch.members.map (·.solver.pending) =
    start.batch.members.mapIdx fun i member => runs s.ascents i ++ member.solver.pending
  belongs : ∀ ascent ∈ s.ascents, Belongs s.batch ascent.2

namespace InOrder

variable {start s s' : Session α (Solver α)}

theorem of_fresh (fresh : start.ascents = []) : InOrder start start := by
  refine ⟨?_, fun ascent inside => ?_⟩
  · rw [fresh]
    exact List.ext_getElem (by simp) (by simp [runs])
  · rw [fresh] at inside
    cases inside

theorem length_eq (ordered : InOrder start s) :
    s.batch.members.length = start.batch.members.length := by
  have lengths := congrArg List.length ordered.pending
  rwa [List.length_map, List.length_mapIdx] at lengths

omit [Scalar α] [Zero α] [Add α] [Sub α] [Mul α] [Neg α] in
theorem map_pending (b : Batch (Solver α)) :
    b.members.map (·.solver.pending) = (ledgers b).map (·.2.pending) := by
  rw [ledgers, views, List.map_map]
  rfl

/-- The solvers wait with the run of the newest record first. -/
theorem latest (ordered : InOrder start s) {label : Nat} {record : AscentRecord α}
    {older : List (Nat × AscentRecord α)} (newest : s.ascents = (label, record) :: older) :
    s.batch.members.map (·.solver.pending.head?.getD 0) = record.realized := by
  have belongs := ordered.belongs (label, record) (newest ▸ List.mem_cons_self)
  have heads := congrArg (List.map fun pending => pending.head?.getD 0) ordered.pending
  rw [List.map_map, newest] at heads
  refine heads.trans (List.ext_getElem ?_ fun i _ within => ?_)
  · rw [List.length_map, List.length_mapIdx, belongs.runs, ordered.length_eq]
  · simp [runs, within]

theorem pending_at (ordered : InOrder start s) {label : Nat} {record : AscentRecord α}
    {older : List (Nat × AscentRecord α)} (newest : s.ascents = (label, record) :: older) {i : Nat}
    {member : Member (Solver α)} (found : s.batch.members[i]? = some member) :
    ∃ run, record.realized[i]? = some run ∧
      member.solver.pending = run :: member.solver.pending.tail := by
  have entry := congrArg (fun entries => entries[i]?) ordered.pending
  have head := congrArg (fun entries => entries[i]?) (ordered.latest newest)
  simp only [List.getElem?_map, List.getElem?_mapIdx, found, Option.map_some] at entry head
  obtain ⟨first, -, same⟩ := Option.map_eq_some_iff.mp entry.symm
  rw [newest] at same
  refine ⟨_, head.symm, ?_⟩
  rw [← same]
  rfl

theorem pending_of_entered (ordered : InOrder start s) {label : Nat} {record : AscentRecord α}
    (length_eq : record.realized.length = s.batch.members.length) :
    (entered (ledgers s.batch) record.realized).map (·.2.pending) =
      start.batch.members.mapIdx fun i member =>
        runs ((label, record) :: s.ascents) i ++ member.solver.pending := by
  have pushed : (entered (ledgers s.batch) record.realized).map (·.2.pending) =
      List.zipWith (fun pending run => run :: pending) ((ledgers s.batch).map (·.2.pending))
        record.realized := by
    rw [entered, List.map_zipWith, List.zipWith_map_left]
    rfl
  rw [pushed, ← map_pending, ordered.pending]
  refine List.ext_getElem ?_ fun i _ within => ?_
  · simp [length_eq, ordered.length_eq]
  · rw [List.length_mapIdx, ← ordered.length_eq, ← length_eq] at within
    simp [runs, within]

theorem pending_of_settled (ordered : InOrder start s) {label : Nat} {record : AscentRecord α}
    {older : List (Nat × AscentRecord α)} (newest : s.ascents = (label, record) :: older) :
    (settled record (ledgers s.batch)).map (·.2.pending) =
      start.batch.members.mapIdx fun i member => runs older i ++ member.solver.pending := by
  have popped : (settled record (ledgers s.batch)).map (·.2.pending) =
      ((ledgers s.batch).map (·.2.pending)).map List.tail := by
    rw [settled, List.map_map, List.map_map]
    rfl
  rw [popped, ← map_pending, ordered.pending, newest]
  exact List.ext_getElem (by simp) (by simp [runs])

/-- A turn keeps the order. -/
theorem advance (ordered : InOrder start s) (advance : Advance s s') : InOrder start s' := by
  cases advance with
  | stay same =>
      have ledgers_eq : ledgers s'.batch = ledgers s.batch := congrArg Prod.fst same
      have ascents_eq : s'.ascents = s.ascents := congrArg Prod.snd same
      refine ⟨?_, fun ascent inside => ?_⟩
      · rw [map_pending, ledgers_eq, ← map_pending, ascents_eq]
        exact ordered.pending
      · rw [ascents_eq] at inside
        exact (ordered.belongs ascent inside).of_frames (congrArg (List.map frame) ledgers_eq)
  | enter label record belongs runs newest =>
      have frames : (ledgers s'.batch).map frame = (ledgers s.batch).map frame := by
        rw [runs, map_frame_entered]
        exact belongs.runs.trans (List.length_map _).symm
      refine ⟨?_, fun ascent inside => ?_⟩
      · rw [map_pending, runs, newest]
        exact ordered.pending_of_entered belongs.runs
      · rw [newest] at inside
        rcases List.mem_cons.mp inside with rfl | inside
        · exact belongs.of_frames frames
        · exact (ordered.belongs ascent inside).of_frames frames
  | settle label record newest replays =>
      refine ⟨?_, fun ascent inside => ?_⟩
      · rw [map_pending, replays]
        exact ordered.pending_of_settled newest
      · apply (ordered.belongs ascent (newest ▸ List.mem_cons_of_mem _ inside)).of_frames
        rw [replays, map_frame_settled]

end InOrder

section Backward

variable {s : Session α (Solver α)} (label : Nat) {of : Nat} {gradients : OutputGradients α}

theorem state_backward_of_none (absent : s.record? of = none) :
    ((execute label (.backward of gradients)).run s).state = s := by
  rw [execute, run_read_bind, absent]
  rfl

theorem run_backward_of_some {record : Record α} (found : s.record? of = some record) :
    (execute label (.backward of gradients)).run s =
      (onBatch (descend record gradients)).run (s.dropRecord of) := by
  rw [execute, run_read_bind, found]
  rfl

/-- The backward pass of the newest dual ascent settles it in every ledger, and fails for gradients
that are not finite at most. -/
theorem backward_settles {start : Session α (Solver α)} (ordered : InOrder start s)
    {record : AscentRecord α} (found : s.record? of = some (.ascent record))
    (disciplined : s.Disciplined (.backward of gradients)) :
    let outcome := (execute label (.backward of gradients)).run s
    s.ascents = (of, record) :: outcome.state.ascents ∧
      ledgers outcome.state.batch = settled record (ledgers s.batch) ∧
      ((∃ gradient, outcome.result = .ok (.ascent gradient)) ∨
        ∃ name count length,
          outcome.result = .error (.operation (.nonFinite name count length))) := by
  obtain ⟨newest, accepts⟩ := disciplined record found
  have ascents_eq : s.ascents = (of, record) :: (s.dropRecord of).ascents :=
    Record.ascents_eraseP_of_some found newest
  have belongs := ordered.belongs (of, record) (ascents_eq ▸ List.mem_cons_self)
  obtain ⟨replays, ends⟩ := ascendBackward_settles belongs (ordered.latest ascents_eq) accepts
  have state := state_map InputGradient.ascent (ascendBackward record gradients) s.batch
  have result := result_map InputGradient.ascent (ascendBackward record gradients) s.batch
  intro outcome
  have run_eq : outcome = _ := run_backward_of_some label found
  have batch_eq : outcome.state.batch = ((ascendBackward record gradients).run s.batch).state :=
    (congrArg (fun outcome => outcome.state.batch) run_eq).trans state
  have result_eq : outcome.result =
      (((ascendBackward record gradients).run s.batch).result.map InputGradient.ascent).mapError
        CommandError.operation :=
    (congrArg Outcome.result run_eq).trans
      (congrArg (Except.mapError CommandError.operation) result)
  refine ⟨?_, (congrArg ledgers batch_eq).trans replays, ?_⟩
  · rw [run_eq]
    exact ascents_eq
  · rw [result_eq]
    rcases ends with ⟨gradient, ok⟩ | ⟨name, count, length, failed⟩
    · rw [ok]
      exact .inl ⟨gradient, rfl⟩
    · rw [failed]
      exact .inr ⟨name, count, length, rfl⟩

end Backward

theorem WholeTurn.advance {start s s' : Session α (Solver α)} (ordered : InOrder start s)
    (turn : WholeTurn s s') : Advance s s' := by
  obtain ⟨label, command, disciplined, returns⟩ := turn
  have blind : Solver.Blind (Solver.ledger : Solver α → Ledger) := Solver.blind_ledger
  cases command with
  | ascend inputs settings =>
      rcases ascend_cases inputs settings s.batch with
        ⟨state, e, refused⟩ | ⟨cause, broken⟩ | ⟨ascended, record, answered, belongs, runs⟩
      · apply Advance.stay
        rw [execute, (recording_of_error label _ refused).1, state]
        rfl
      · exact absurd broken (returns cause)
      · have state := (recording_of_ok label Record.ascent answered).state
        refine .enter label record belongs ?_ ?_
        · rw [execute, state]
          exact runs
        · rw [execute, state]
          rfl
  | redistribute costs =>
      exact .stay (fixes_recording label (fixes_redistribute blind costs) (fun _ => rfl) s)
  | minMarginals branches =>
      exact .stay (fixes_recording label (fixes_minMarginals blind branches) (fun _ => rfl) s)
  | perturb inputs =>
      exact .stay (fixes_recording label (fixes_perturb blind inputs) (fun _ => rfl) s)
  | lowerBounds branches =>
      exact .stay (fixes_recording label (fixes_lowerBounds blind branches) (fun _ => rfl) s)
  | round costs settings => exact .stay (fixes_onBatch (fixes_round blind costs settings) s)
  | solution branches => exact .stay (fixes_onBatch (fixes_solution blind branches) s)
  | backward of gradients =>
      cases found : s.record? of with
      | none =>
          apply Advance.stay
          rw [state_backward_of_none label found]
      | some record =>
          cases kind : record.ascent? with
          | none =>
              apply Advance.stay
              rw [run_backward_of_some label found]
              apply (fixes_onBatch (fixes_descend blind kind gradients) _).trans
              exact congrArg (Prod.mk _) (Record.ascents_eraseP_of_none found kind)
          | some ascent =>
              obtain rfl := Record.ascent?_eq_some kind
              obtain ⟨newest, replays, -⟩ := backward_settles label ordered found disciplined
              exact .settle of ascent newest replays

/-- A session keeps the order from its start on. -/
theorem inOrder_of_reached {start s : Session α (Solver α)} (fresh : start.ascents = [])
    (reached : Relation.ReflTransGen WholeTurn start s) : InOrder start s := by
  induction reached with
  | refl => exact .of_fresh fresh
  | tail _ turn ih => exact ih.advance (turn.advance ih)

/-- Every solver waits with the runs of the unused records on top of those from the start, and
the next replay in order removes one run, the same for both sides, and is entered once. -/
structure ReplaysInReverse (start s : Session α (Solver α)) : Prop where
  pending : s.batch.members.map (·.solver.pending) =
    start.batch.members.mapIdx fun i member => runs s.ascents i ++ member.solver.pending
  realized : ∀ ascent ∈ s.ascents, ascent.2.realized.length = start.batch.members.length
  settles : ∀ {label of : Nat} {gradients : OutputGradients α} {record : AscentRecord α},
    s.record? of = some (.ascent record) → s.Disciplined (.backward of gradients) →
      let outcome := (execute label (.backward of gradients)).run s
      ((∃ gradient, outcome.result = .ok (.ascent gradient)) ∨
        ∃ name count length,
          outcome.result = .error (.operation (.nonFinite name count length))) ∧
      s.ascents = (of, record) :: outcome.state.ascents ∧
      outcome.state.batch.members.length = s.batch.members.length ∧
      ∀ (i : Nat) (before : Member (Solver α)), s.batch.members[i]? = some before →
        ∃ (after : Member (Solver α)) (run : Nat),
          outcome.state.batch.members[i]? = some after ∧ record.realized[i]? = some run ∧
          before.solver.pending = run :: after.solver.pending ∧
          after.solver.replays = before.solver.replays.push
            ⟨⟨run - min run record.tracked, min run record.tracked⟩, record.caches⟩

omit [Scalar α] [Zero α] [Add α] [Sub α] [Mul α] [Neg α] in
theorem exists_of_settled {b b' : Batch (Solver α)} {record : AscentRecord α}
    (replays : ledgers b' = settled record (ledgers b)) {i : Nat} {before : Member (Solver α)}
    (found : b.members[i]? = some before) :
    ∃ after, b'.members[i]? = some after ∧
      after.solver.ledger = before.solver.ledger.settle record.tracked record.caches := by
  have entry := congrArg (fun entries => entries[i]?) replays
  simp only [ledgers, views, settled, List.getElem?_map, found, Option.map_some] at entry
  obtain ⟨after, there, same⟩ := Option.map_eq_some_iff.mp entry
  exact ⟨after, there, congrArg (·.2) same⟩

/-- In a session whose gradients go back the newest first, no replay is refused, and each of them
takes exactly its own run off the record of every solver. -/
theorem replaysInReverse_of_reached {start s : Session α (Solver α)} (fresh : start.ascents = [])
    (reached : Relation.ReflTransGen WholeTurn start s) : ReplaysInReverse start s := by
  have ordered := inOrder_of_reached fresh reached
  refine ⟨ordered.pending, fun ascent inside => ?_, ?_⟩
  · rw [← ordered.length_eq]
    exact (ordered.belongs ascent inside).runs
  · intro label of gradients record found disciplined
    obtain ⟨newest, replays, ends⟩ := backward_settles label ordered found disciplined
    refine ⟨ends, newest, ?_, fun i before before_at => ?_⟩
    · have lengths := congrArg List.length replays
      simpa [ledgers, views, settled] using lengths
    · obtain ⟨after, after_at, settled⟩ := exists_of_settled replays before_at
      obtain ⟨run, waiting, pending⟩ := ordered.pending_at newest before_at
      have left : after.solver.pending = before.solver.pending.tail :=
        congrArg Ledger.pending settled
      have replayed : after.solver.replays = before.solver.replays.push
          ⟨.ofRun (before.solver.pending.head?.getD 0) record.tracked, record.caches⟩ :=
        congrArg Ledger.replays settled
      rw [pending] at left replayed
      exact ⟨after, run, after_at, waiting, left ▸ pending, replayed⟩

section Examples

/-- Costs and weights of zero for so many layers. -/
def idle (layers : Nat) : Inputs ℚ (Buffer ℚ) :=
  let zeros : Buffer ℚ := .ofArray (Array.replicate layers 0)
  ⟨⟨⟨zeros, zeros⟩, zeros⟩, zeros, .shared 0⟩

/-- A dual ascent of this many steps, the last of which is tracked. -/
def steps (layers iterations : Nat) : Command ℚ (Ascended ℚ) :=
  .ascend (idle layers) ⟨iterations, 1, 0, 1, 0, 0⟩

/-- No outer gradients. -/
def silence : OutputGradients ℚ := ⟨none, none, none, none, none⟩

/-- Two solvers, the first of which makes one step in a run at most. -/
def nested : Session ℚ (Solver ℚ) :=
  ⟨ofSolvers [Solver.ofDiagrams ⟨6, [[5]]⟩ (some 1) none,
    Solver.ofDiagrams ⟨6, [[4], [3]]⟩ none none], []⟩

/-- After one dual ascent, after a second one, and after the gradients of the second. -/
def nestedOnce : Session ℚ (Solver ℚ) := ((execute 0 (steps 6 2)).run nested).state

def nestedTwice : Session ℚ (Solver ℚ) := ((execute 1 (steps 6 3)).run nestedOnce).state

def nestedBack : Session ℚ (Solver ℚ) :=
  ((execute 2 (.backward 1 silence)).run nestedTwice).state

theorem nested_replaysInReverse :
    ReplaysInReverse nested nestedBack ∧
      nestedTwice.batch.members.map (·.solver.pending) = [[1, 1], [3, 2]] ∧
      nestedBack.batch.members.map (·.solver.pending) = [[1], [2]] := by
  have first : ((Operation.ascend (idle 6) ⟨2, 1, 0, 1, 0, 0⟩ : Batch.Work ℚ (Solver ℚ) _).run
      nested.batch).result.toOption.isSome = true := by decide +kernel
  have second : ((Operation.ascend (idle 6) ⟨3, 1, 0, 1, 0, 0⟩ : Batch.Work ℚ (Solver ℚ) _).run
      nestedOnce.batch).result.toOption.isSome = true := by decide +kernel
  obtain ⟨once, once_eq⟩ := Option.isSome_iff_exists.mp first
  obtain ⟨twice, twice_eq⟩ := Option.isSome_iff_exists.mp second
  rw [toOption_eq_some_iff] at once_eq twice_eq
  have records : nestedTwice.records = (1, .ascent twice.2) :: nestedOnce.records :=
    congrArg Session.records (recording_of_ok 1 Record.ascent twice_eq).state
  have disciplined : nestedTwice.Disciplined (.backward 1 silence) := by
    intro record found
    rw [record?, records] at found
    cases found
    refine ⟨?_, ⟨_, rfl⟩, _, rfl⟩
    rw [ascents, records]
    rfl
  have turns : Relation.ReflTransGen WholeTurn nested nestedBack :=
    .tail (.tail (.tail .refl
      (.call 0 (steps 6 2) trivial fun _ broken => nomatch once_eq.symm.trans broken))
      (.call 1 (steps 6 3) trivial fun _ broken => nomatch twice_eq.symm.trans broken))
      (.call 2 (.backward 1 silence) disciplined trivial)
  exact ⟨replaysInReverse_of_reached rfl turns, by decide +kernel, by decide +kernel⟩

/-- Two solvers, the second of which has more variables than there is memory to sum up. -/
def torn : Session ℚ (Solver ℚ) :=
  ⟨ofSolvers [Solver.ofDiagrams ⟨5, [[4]]⟩ none none,
    Solver.ofDiagrams ⟨4611686018427387904, [[0]]⟩ none none], []⟩

/-- After a dual ascent that breaks off at the second solver. -/
def tornOnce : Session ℚ (Solver ℚ) := ((execute 0 (steps 4 2)).run torn).state

/-- A dual ascent that breaks off leaves runs behind that are on no record. -/
theorem torn_not_replaysInReverse :
    torn.ascents = [] ∧ Relation.ReflTransGen Turn torn tornOnce ∧
      ¬ReplaysInReverse torn tornOnce := by
  refine ⟨rfl, .single (.call 0 (steps 4 2) trivial), fun reverse => ?_⟩
  have left : tornOnce.batch.members.map (·.solver.pending) = [[2], []] := by decide +kernel
  have owed : (torn.batch.members.mapIdx fun i member =>
      runs tornOnce.ascents i ++ member.solver.pending) = [[], []] := by decide +kernel
  have pending := reverse.pending
  rw [left, owed] at pending
  cases pending

end Examples

end DualAscent.Session
