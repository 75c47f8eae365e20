import DualAscent.Proofs.Exact
import DualAscent.Proofs.Solver.Served
import DualAscent.Proofs.Solver.Standing
import Mathlib.Data.List.ReduceOption

/-!
# Every run is replayed at most once

The runs of a solver are numbered in the order in which they were answered.  A replay takes the
latest run that waits; a run that was taken never waits again.  A replay of no steps is also
answered where no run waits, and then it takes none.  Those replays are all that the books of a
solver have in excess of its runs.
-/

namespace DualAscent

open Procedure

/-- The runs that were answered, and where they are. -/
structure Books where
  /-- Lengths of the runs, by number. -/
  runs : List Nat
  /-- Numbers of the runs that wait for their gradient, the latest first. -/
  waiting : List Nat
  /-- For every replay, the oldest first, the number of the run that it took, if it found one. -/
  taken : List (Option Nat)

namespace Books

/-- Nothing was answered yet. -/
def empty : Books := ⟨[], [], []⟩

/-- Length of a run; zero for a number that no run has. -/
def length (books : Books) (number : Nat) : Nat := books.runs[number]?.getD 0

/-- A run gets the next number and waits; a replay takes the latest run that waits. -/
def enter (books : Books) : Entry → Books
  | .run steps =>
    { books with
      runs := books.runs ++ [steps]
      waiting := books.runs.length :: books.waiting }
  | .replay _ _ =>
    { books with
      waiting := books.waiting.tail
      taken := books.taken ++ [books.waiting.head?] }

/-- Every run waits or was taken by one replay, and the runs that wait are the latest first. -/
structure Settled (books : Books) : Prop where
  once : (books.waiting ++ books.taken.reduceOption).Perm (List.range books.runs.length)
  latest : books.waiting.Pairwise (· > ·)

theorem settled_empty : empty.Settled := ⟨.refl _, .nil⟩

theorem Settled.lt {books : Books} (settled : books.Settled) {number : Nat}
    (waits : number ∈ books.waiting) : number < books.runs.length :=
  List.mem_range.mp (settled.once.mem_iff.mp (List.mem_append_left _ waits))

theorem Settled.taken_lt {books : Books} (settled : books.Settled) {number : Nat}
    (taken : some number ∈ books.taken) : number < books.runs.length :=
  List.mem_range.mp (settled.once.mem_iff.mp
    (List.mem_append_right _ (List.reduceOption_mem_iff.mpr taken)))

theorem Settled.enter {books : Books} (settled : books.Settled) (entry : Entry) :
    (books.enter entry).Settled := by
  cases entry with
  | run steps =>
      refine ⟨?_, List.pairwise_cons.mpr ⟨fun _ waits => settled.lt waits, settled.latest⟩⟩
      rw [Books.enter, List.length_append, List.length_singleton, List.range_succ]
      exact (settled.once.cons _).trans (List.perm_append_singleton _ _).symm
  | replay window caches =>
      obtain ⟨runs, waiting, taken⟩ := books
      refine ⟨?_, settled.latest.tail⟩
      cases waiting with
      | nil =>
          rw [Books.enter, List.reduceOption_append]
          simpa using settled.once
      | cons number waiting =>
          rw [Books.enter, List.reduceOption_append]
          refine List.Perm.trans ?_ settled.once
          show (waiting ++ (taken.reduceOption ++ [number])).Perm _
          rw [← List.append_assoc]
          exact List.perm_append_singleton number _

/-- Runs, and replays that found none, are as many as runs that wait, and replays. -/
theorem Settled.balance {books : Books} (settled : books.Settled) :
    books.runs.length + books.taken.countP Option.isNone =
      books.waiting.length + books.taken.length := by
  have runs := settled.once.length_eq
  rw [List.length_append, List.length_range] at runs
  rw [← runs, List.countP_eq_length_filter, Nat.add_assoc,
    ← List.length_eq_reduceOption_length_add_filter_none]

end Books

namespace Solver

variable {α : Type}

/-- The books show what the solver has on record: the lengths of the runs that wait, and replays as
long as the runs that they took. -/
structure Shows (s : Solver α) (books : Books) : Prop where
  pending : s.pending = books.waiting.map books.length
  replays : s.replays.toList.map (·.window.total) = books.taken.map (·.elim 0 books.length)

theorem shows_ofDiagrams [Zero α] (d : Diagrams) (limit : Option Nat) (failure : Option Routine) :
    (ofDiagrams d limit failure : Solver α).Shows .empty := ⟨rfl, rfl⟩

/-- A run leaves the lengths of the earlier ones alone. -/
theorem Shows.run {s : Solver α} {books : Books} (shows : s.Shows books) (settled : books.Settled)
    {reached : Solver α} {steps : Nat} (pushed : reached.pending = steps :: s.pending)
    (same : reached.replays = s.replays) : reached.Shows (books.enter (.run steps)) := by
  have earlier {number : Nat} (made : number < books.runs.length) :
      (books.enter (.run steps)).length number = books.length number := by
    rw [Books.length, Books.length, Books.enter, List.getElem?_append_left made]
  refine ⟨?_, ?_⟩
  · rw [pushed, shows.pending]
    refine congrArg₂ List.cons ?_ (List.map_congr_left fun number waits => ?_)
    · rw [Books.length, Books.enter, List.getElem?_concat_length]
      rfl
    · exact (earlier (settled.lt waits)).symm
  · rw [same, shows.replays]
    refine List.map_congr_left fun number taken => ?_
    cases number with
    | none => rfl
    | some number => exact (earlier (settled.taken_lt taken)).symm

theorem Shows.replay {s : Solver α} {books : Books} (shows : s.Shows books) {reached : Solver α}
    {window : ReplayWindow} {caches : Nat} (latest : window.total = s.pending.head?.getD 0)
    (popped : reached.pending = s.pending.tail)
    (pushed : reached.replays = s.replays.push ⟨window, caches⟩) :
    reached.Shows (books.enter (.replay window caches)) := by
  refine ⟨?_, ?_⟩
  · rw [popped, shows.pending, ← List.map_tail]
    rfl
  · rw [pushed, Array.toList_push, List.map_append, shows.replays]
    show _ = (books.taken ++ [books.waiting.head?]).map _
    rw [List.map_append]
    refine congrArg _ ?_
    show [window.total] = [books.waiting.head?.elim 0 books.length]
    rw [latest, shows.pending, List.head?_map]
    cases books.waiting.head? with
    | none => rfl
    | some number => rfl

section Engine

variable [Scalar α] [Zero α] [Add α] [Sub α] [Mul α] [Neg α]

/-- An answered replay is as long as the latest run; where none waits, it makes no step. -/
theorem total_of_replay {δ β : Type} {s : Solver α} {slices : δ} {called : Invocation α δ β}
    {value : β} {window : ReplayWindow} {caches : Nat}
    (ok : ((call called).run ⟨s, slices⟩).result = .ok value)
    (entered : called.entry? value = some (.replay window caches)) :
    window.total = s.pending.head?.getD 0 := by
  cases called with
  | gradIterations weights damping window' caches' =>
      cases entered
      let request : Request α _ := .gradIterations weights damping slices window caches
      have answered : ((serve request).run s).result = .ok _ := congrArg (Except.map _) ok
      exact (latest_of_iterateBackward answered).symm
  | _ => cases entered

/-- A call enters in the books what it changes on record. -/
theorem Shows.next {s : Solver α} {books : Books} (shows : s.Shows books) (settled : books.Settled)
    (called : AnyCall α) :
    (s.next called).Shows ((s.entry? called).toList.foldl Books.enter books) := by
  obtain ⟨invocation, slices⟩ := called
  rw [Solver.next, entry?]
  dsimp only
  cases result : ((call invocation).run ⟨s, slices⟩).result with
  | error e =>
      obtain ⟨pending, replays⟩ := record_of_error result
      refine ⟨pending.trans shows.pending, ?_⟩
      rw [replays]
      exact shows.replays
  | ok value =>
      obtain ⟨costs, entered⟩ := state_of_ok result
      rw [entered]
      dsimp only
      cases entry : invocation.entry? value with
      | none => exact ⟨shows.pending, shows.replays⟩
      | some entry' =>
          cases entry' with
          | run steps => exact shows.run settled rfl rfl
          | replay window caches => exact shows.replay (total_of_replay result entry) rfl rfl

/-- What some calls enter in the books, in order. -/
def entries (s : Solver α) : List (AnyCall α) → List Entry
  | [] => []
  | called :: calls => (s.entry? called).toList ++ (s.next called).entries calls

theorem shows_afterAll {s : Solver α} {books : Books} (shows : s.Shows books)
    (settled : books.Settled) (calls : List (AnyCall α)) :
    (s.afterAll calls).Shows ((s.entries calls).foldl Books.enter books) ∧
      ((s.entries calls).foldl Books.enter books).Settled := by
  induction calls generalizing s books with
  | nil => exact ⟨shows, settled⟩
  | cons called calls ih =>
      rw [entries, List.foldl_append]
      refine ih (shows.next settled called) ?_
      cases s.entry? called with
      | none => exact settled
      | some entry => exact settled.enter entry

/-- Whatever is called on a new solver, its runs are replayed at most once, the latest first: by
number, the runs that wait and those that replays took are all its runs, each of them once.  A
replay that is answered takes the latest run that waits, which is as long as the replay; only where
no run waits, a replay of no steps is answered and takes none, and these replays are the excess of
the record over the runs.  A call that fails takes no run. -/
theorem replays_settle_runs (d : Diagrams) (limit : Option Nat) (failure : Option Routine)
    (calls : List (AnyCall α)) :
    let start : Solver α := ofDiagrams d limit failure
    let s := start.afterAll calls
    let books := (start.entries calls).foldl Books.enter .empty
    (s.pending = books.waiting.map books.length ∧
        s.replays.toList.map (·.window.total) = books.taken.map (·.elim 0 books.length)) ∧
      (books.waiting ++ books.taken.reduceOption).Perm (List.range books.runs.length) ∧
      books.waiting.Pairwise (· > ·) ∧
      books.runs.length + books.taken.countP Option.isNone = s.pending.length + s.replays.size ∧
      (∀ weights damping gradient window caches,
        let outcome := (call (.gradIterations weights damping window caches)).run ⟨s, gradient⟩
        let reached := outcome.state.engine
        outcome.result = .ok () →
          (∀ run earlier, s.pending = run :: earlier →
            window.total = run ∧ reached.pending = earlier) ∧
          (s.pending = [] → window.total = 0 ∧ reached.pending = []) ∧
          reached.replays = s.replays.push ⟨window, caches⟩) ∧
      ∀ {δ β : Type} (invocation : Invocation α δ β) (slices : δ) (e : EngineError),
        let outcome := (call invocation).run ⟨s, slices⟩
        outcome.result = .error e → outcome.state.engine.pending = s.pending ∧
          outcome.state.engine.replays = s.replays := by
  intro start s books
  obtain ⟨shows, settled⟩ := shows_afterAll (shows_ofDiagrams d limit failure)
    Books.settled_empty calls
  refine ⟨⟨shows.pending, shows.replays⟩, settled.once, settled.latest, ?_, ?_, ?_⟩
  · have logged := congrArg List.length shows.replays
    rw [List.length_map, List.length_map, Array.length_toList] at logged
    rw [settled.balance, shows.pending, List.length_map, logged]
  · intro weights damping gradient window caches outcome reached ok
    have total : window.total = s.pending.head?.getD 0 := total_of_replay ok rfl
    obtain ⟨costs, entered⟩ := state_of_ok ok
    have popped : reached.pending = s.pending.tail := congrArg Solver.pending entered
    refine ⟨fun run earlier waits => ?_, fun idle => ?_, congrArg Solver.replays entered⟩
    · rw [total, popped, waits]
      exact ⟨rfl, rfl⟩
    · rw [total, popped, idle]
      exact ⟨rfl, rfl⟩
  · intro δ β invocation slices e outcome failed
    exact record_of_error failed

end Engine

/-- A new solver for one chain over one variable. -/
def unused : Solver ℚ := .ofDiagrams ⟨1, [[.last 0]]⟩ none none

/-- A replay of no steps. -/
def idleReplay : AnyCall ℚ :=
  let zeros : Array ℚ := #[0, 0]
  ⟨.gradIterations zeros (.shared 0) ⟨0, 0⟩ 1, ⟨⟨⟨zeros, zeros⟩, zeros⟩, zeros, .shared 0⟩⟩

/-- It is answered although there was no run that it could take. -/
theorem unused_answers_idleReplay :
    let s := unused.afterAll [idleReplay]
    let books := (unused.entries [idleReplay]).foldl Books.enter .empty
    books.runs.length = 0 ∧ books.taken = [none] ∧ unused.pending = [] ∧
      s.pending.length + s.replays.size = 1 := by
  decide +kernel

end Solver

end DualAscent
