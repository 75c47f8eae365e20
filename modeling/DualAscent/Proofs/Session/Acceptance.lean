import DualAscent.Proofs.Operation.Share
import DualAscent.Proofs.Session.Cuts
import DualAscent.Proofs.Session.History

/-!
# Exact acceptance

A forward pass reports the first of its conditions that is violated.  If none is, it answers exactly
if every solver has what its part takes.  No command that is not refused cuts an array out of range
or hands an engine a segment of the wrong length.
-/

namespace DualAscent

open Procedure Batch

variable {α β γ : Type} [Scalar α] [Zero α] [Add α] [Sub α] [Mul α] [Neg α]

/-- The command is no backward pass. -/
def Command.Forward : Command α β → Prop
  | .backward .. => False
  | _ => True

omit [Scalar α] [Zero α] [Add α] [Sub α] [Mul α] [Neg α] in
theorem Command.Certain.forward {command : Command α β} (certain : command.Certain) :
    command.Forward := by
  cases command with
  | backward => exact certain.elim
  | _ => trivial

/-- The conditions on the inputs of a command that is no backward pass, in the order in which they
are checked: those on the buffers, then whether the solvers have changed, and then whether the
segments of the batch cover the buffers. -/
def Command.violations (b : Batch (Solver α)) : Command α β → List (Option (Error α))
  | .ascend inputs _ => inputs.violations ++
      [b.changeViolation, b.totalViolation .layer inputs.costs.lo.length]
  | .redistribute costs | .round costs _ => costs.violations ++
      [b.changeViolation, b.totalViolation .layer costs.lo.length]
  | .minMarginals branches | .lowerBounds branches | .solution branches => branches.violations ++
      [b.changeViolation, b.totalViolation .layer branches.lo.length]
  | .perturb inputs => inputs.violations ++
      [b.changeViolation, b.totalViolation .layer inputs.costs.lo.length,
        b.totalViolation .slot inputs.change.lo.length]
  | .backward .. => []

theorem Command.decides {command : Command α β} (forward : command.Forward) (b : Batch (Solver α))
    (record? : Nat → Option (Record α)) :
    Operation.Decides (command.violations b) b (command.Fits b.sizes record?) := by
  cases command with
  | ascend inputs settings => exact Operation.decides_inputs b inputs
  | redistribute costs => exact Operation.decides_costs b costs
  | minMarginals branches => exact Operation.decides_branches b branches
  | perturb inputs => exact Operation.decides_perturbed b inputs
  | lowerBounds branches => exact Operation.decides_branches b branches
  | backward of gradients => exact forward.elim
  | round costs settings => exact Operation.decides_costs b costs
  | solution branches => exact Operation.decides_branches b branches

/-- An engine says that a segment has the wrong number of elements. -/
def EngineError.Misfit : EngineError → Prop
  | .segmentLength .. => True
  | _ => False

namespace Session

variable {s : Session α (Solver α)}

/-- The command is screened for its conditions, and takes the course of its parts if it passes. -/
theorem execute_screens {command : Command α β} (forward : command.Forward)
    (s : Session α (Solver α)) (label : Nat) :
    ∃ fate,
      Screens (command.part s.batch.sizes s.record?) (command.violations s.batch) s.batch fate ∧
      ((execute label command).run s).result.map (fun _ => ()) = fate.2.mapError .operation := by
  cases command with
  | ascend inputs settings =>
      exact ⟨_, Operation.screens_ascend s.batch inputs settings, (forget_recording label _ _ s).2⟩
  | redistribute costs =>
      exact ⟨_, Operation.screens_redistribute s.batch costs, (forget_recording label _ _ s).2⟩
  | minMarginals branches =>
      exact ⟨_, Operation.screens_minMarginals s.batch branches, (forget_recording label _ _ s).2⟩
  | perturb inputs =>
      exact ⟨_, Operation.screens_perturb s.batch inputs, (forget_recording label _ _ s).2⟩
  | lowerBounds branches =>
      exact ⟨_, Operation.screens_lowerBounds s.batch branches, (forget_recording label _ _ s).2⟩
  | backward of gradients => exact forward.elim
  | round costs settings =>
      exact ⟨_, Operation.screens_round s.batch costs settings, forget_onBatch _ s⟩
  | solution branches =>
      exact ⟨_, Operation.screens_solution s.batch branches, forget_onBatch _ s⟩

/-- The inputs of the command are refused. -/
def Refuses (result : Except (CommandError α) β) : Prop :=
  ∃ e, result = .error (.operation e) ∧ e.Refuses

/-- The first condition that is violated is what the command reports. -/
theorem result_of_violated {command : Command α β} (forward : command.Forward) (label : Nat)
    {e : Error α} (violated : report (command.violations s.batch) = .error e) :
    ((execute label command).run s).result = .error (.operation e) := by
  obtain ⟨fate, ⟨left, -, rfl⟩, same⟩ := execute_screens forward s label
  rw [screened_of_error violated] at same
  exact map_eq_error_iff.mp same

/-- A command is refused, or fits the batch, unless it finds no record. -/
theorem execute_fits (made : ∀ of record, s.record? of = some record → record.Made) (label : Nat)
    (command : Command α β) :
    let outcome := (execute label command).run s
    Refuses outcome.result ∨ command.Fits s.batch.sizes s.record? ∧
      (outcome.result = .error .noRecord ∨ s.batch.Stable) := by
  have ahead (forward : command.Forward) : Refuses ((execute label command).run s).result ∨
      command.Fits s.batch.sizes s.record? ∧
        (((execute label command).run s).result = .error .noRecord ∨ s.batch.Stable) := by
    have decides := command.decides forward s.batch s.record?
    cases screened : report (command.violations s.batch) with
    | error e =>
        exact .inl ⟨e, result_of_violated forward label screened, decides.refuses e screened⟩
    | ok _ =>
        obtain ⟨stable, fits⟩ := decides.accepts screened
        exact .inr ⟨fits, .inr stable⟩
  cases command with
  | backward of gradients =>
      cases found : s.record? of with
      | none =>
          refine .inr ⟨fun record recorded => (nomatch found.symm.trans recorded), .inl ?_⟩
          rw [execute, run_read_bind, found]
          rfl
      | some record =>
          rcases record.fits_or_refused (made of record found) s.batch gradients with
            ⟨e, failed, refuses⟩ | ⟨stable, fits⟩
          · refine .inl ⟨e, ?_, refuses⟩
            rw [run_backward_of_some label found]
            show ((descend record gradients).run s.batch).result.mapError _ = _
            rw [failed]
            rfl
          · refine .inr ⟨fun other recorded => ?_, .inr stable⟩
            cases found.symm.trans recorded
            exact fits
  | _ => exact ahead trivial

section Able

variable {b : Batch (Solver α)} (stable : b.Stable) {i : Nat} {member : Member (Solver α)}
  (found : b.members[i]? = some member)

theorem intact_of_bound {t : Solver α} {context : Context α} {costs : Costs (Array α)}
    {next : Unit → Procedure (Event α) (Solver α) (Error α) β} {value : β}
    (ok : ((attempt i context (.setCosts costs) >>= next).run t).result = .ok value) :
    t.intact = true := by
  obtain ⟨_, bound, -⟩ := result_bind_eq_ok_iff.mp ok
  exact Solver.intact_of_setCosts (result_attempt_eq_ok_iff.mp bound)

include stable found

/-- A solver that does its part has what the part takes. -/
theorem affordable_of_ok {command : Command α β} (certain : command.Certain)
    {record? : Nat → Option (Record α)} (fits : command.Fits b.sizes record?)
    (ok : ((command.part b.sizes record? i).run member.solver).result = .ok ()) :
    command.Affordable member.solver.standing := by
  obtain ⟨long, inside⟩ := stable.place_at found .layer
  obtain ⟨few, -⟩ := stable.place_at found .bdd
  cases command with
  | ascend inputs settings =>
      obtain ⟨_, ok⟩ := exists_of_assigned_zip found ok
      exact Operation.able_of_ascendOne fits long few inside ok
  | redistribute costs =>
      obtain ⟨_, ok⟩ := exists_of_assigned_spans found ok
      exact intact_of_bound ok
  | minMarginals branches =>
      obtain ⟨_, ok⟩ := exists_of_assigned_spans found ok
      exact intact_of_bound ok
  | perturb inputs =>
      obtain ⟨_, ok⟩ := exists_of_assigned_zip found ok
      exact intact_of_bound ok
  | lowerBounds branches =>
      obtain ⟨_, ok⟩ := exists_of_assigned_zip found ok
      exact intact_of_bound ok
  | backward of gradients => exact certain.elim
  | round costs settings => exact certain.elim
  | solution branches =>
      obtain ⟨_, ok⟩ := exists_of_assigned_spans found ok
      exact intact_of_bound ok

end Able

/-- A command of which no condition is violated, on solvers that are not set up to fail, answers or
breaks off, depending on what the solvers have. -/
theorem answers_of_accepted {command : Command α β} (certain : command.Certain) (label : Nat)
    (sound : ∀ member ∈ s.batch.members, member.solver.failure = none)
    (accepted : report (command.violations s.batch) = .ok ()) :
    let outcome := (execute label command).run s
    let affordable := ∀ member ∈ s.batch.members, command.Affordable member.solver.standing
    ((∃ value, outcome.result = .ok value) ∧ affordable) ∨
      (∃ cause, outcome.result = .error (.operation (.misuse cause))) ∧ ¬affordable := by
  have forward := certain.forward
  obtain ⟨fate, ⟨left, course, rfl⟩, same⟩ := execute_screens forward s label
  rw [screened_of_ok accepted] at same
  obtain ⟨stable, fits⟩ := (command.decides forward s.batch s.record?).accepts accepted
  have excused (i : Nat) (member : Member (Solver α)) (found : s.batch.members[i]? = some member) :
      Excused member.solver.standing (command.Affordable member.solver.standing) (fun _ => False)
        (command.part s.batch.sizes s.record? i) := by
    have inside := List.mem_of_getElem? found
    exact command.excused_part stable found
      (fun routine fails => nomatch (sound member inside).symm.trans fails) fits
      fun uncertain => (uncertain certain).elim
  obtain ⟨⟨members⟩, result⟩ := left
  dsimp only at course same
  cases course with
  | @stopped i member e found before failed =>
      -- nothing is set up to fail, so that a part fails for what its solver lacks
      rcases (excused i member found _ rfl).2 e failed with
        ⟨⟨cause, rfl⟩, poor⟩ | ⟨_, _, _, _, -, none⟩
      · exact .inr ⟨⟨cause, map_eq_error_iff.mp same⟩,
          fun affordable => poor (affordable member (List.mem_of_getElem? found))⟩
      · exact none.elim
  | finished passes =>
      refine .inl ⟨?_, fun member inside => ?_⟩
      · cases answered : ((execute label command).run s).result with
        | ok value => exact ⟨value, rfl⟩
        | error e =>
            rw [answered] at same
            cases same
      · obtain ⟨i, found⟩ := List.mem_iff_getElem?.mp inside
        have within : i < s.batch.members.length := (List.getElem?_eq_some_iff.mp found).1
        exact affordable_of_ok stable found certain fits (passes i within member found)

/-- No engine is handed a segment of the wrong length. -/
theorem not_misfit (made : ∀ of record, s.record? of = some record → record.Made) (label : Nat)
    (command : Command α β) {i : Nat} {routine : Routine} {context : Context α}
    {source : EngineError}
    (failed : ((execute label command).run s).result =
      .error (.operation (.engine i routine context source))) : ¬source.Misfit := by
  rcases execute_fits made label command with ⟨e, refused, refuses⟩ | ⟨fits, absent | stable⟩
  · cases refused.symm.trans failed
    exact refuses.elim
  · cases absent.symm.trans failed
  rcases execute_cases s label command with absent | ends
  · cases absent.symm.trans failed
  -- the failure is that of a part, and parts of a command that fits have other excuses
  obtain ⟨member, found, -, broken, -⟩ :=
    (ends.leaves_of_error failed).of_engine (command.blames_part _ _)
  have excused : Excused member.solver.standing (command.Affordable member.solver.standing)
      (fun source => ¬source.Misfit) (command.part s.batch.sizes s.record? i) :=
    command.excused_part stable found (fun _ _ => id) fits fun _ =>
      ⟨fun _ => id, fun _ _ _ => id⟩
  rcases (excused _ rfl).2 _ broken with ⟨⟨_, misuse⟩, -⟩ | ⟨_, _, _, _, same, fitting⟩
  · cases misuse
  · cases same
    exact fitting

theorem finds_of_ne {command : Command α β} {label : Nat}
    (known : ((execute label command).run s).result ≠ .error .noRecord) :
    command.Finds s.record? := by
  cases command with
  | backward of gradients =>
      intro absent
      apply known
      rw [execute, run_read_bind, absent]
      rfl
  | _ => trivial

/-- If a condition on its inputs is violated, a forward pass that is not set up to fail reports the
first such condition; if none is, it answers exactly if every solver has what its part takes, and
breaks off otherwise.  A command that is neither refused nor without its record has a part for every
solver, none of whose cuts is out of range, and none hands an engine a segment of the wrong length,
backward passes on any batch included. -/
theorem execute_accepts (made : ∀ of record, s.record? of = some record → record.Made)
    (label : Nat) (command : Command α β) :
    let outcome := (execute label command).run s
    let affordable := ∀ member ∈ s.batch.members, command.Affordable member.solver.standing
    (command.Certain → (∀ member ∈ s.batch.members, member.solver.failure = none) →
      (∀ e, report (command.violations s.batch) = .error e →
        outcome.result = .error (.operation e)) ∧
      ((∀ violation ∈ command.violations s.batch, violation = none) →
        ((∃ value, outcome.result = .ok value) ↔ affordable) ∧
        (¬affordable → ∃ cause, outcome.result = .error (.operation (.misuse cause))))) ∧
    (¬Refuses outcome.result → outcome.result ≠ .error .noRecord →
      ∀ i < s.batch.members.length, ∃ part ∈ command.sliced s.batch.sizes s.record? i,
        part.value = command.part s.batch.sizes s.record? i ∧ part.Inside) ∧
    ∀ i routine context source,
      outcome.result = .error (.operation (.engine i routine context source)) →
      ¬source.Misfit := by
  intro outcome affordable
  refine ⟨fun certain sound => ⟨fun e violated => ?_, fun accepted => ?_⟩,
    fun ahead known i within => ?_,
    fun i routine context source failed => not_misfit made label command failed⟩
  · exact result_of_violated certain.forward label violated
  · rcases answers_of_accepted certain label sound (report_eq_ok_iff.mpr accepted) with
      ⟨answers, able⟩ | ⟨⟨cause, broken⟩, unable⟩
    · exact ⟨⟨fun _ => able, fun _ => answers⟩, fun unable => absurd able unable⟩
    · refine ⟨⟨fun ⟨value, ok⟩ => ?_, fun able => absurd able unable⟩, fun _ => ⟨cause, broken⟩⟩
      cases broken.symm.trans ok
  · obtain ⟨fits, -⟩ := (execute_fits made label command).resolve_left ahead
    have count : s.batch.members.length = s.batch.sizes.length := (List.length_map _).symm
    exact Command.exists_sliced (count ▸ within) made fits (finds_of_ne known)

section Examples

/-- Low branch costs of all layers, and high branch costs of all but the last. -/
def short : Branches (Buffer ℚ) :=
  ⟨.ofArray (Array.replicate 6 0), .ofArray (Array.replicate 5 0)⟩

/-- With a dual ascent on record, a further one answers, buffers of two lengths are refused, and the
backward pass takes eight cuts for every solver, none of which is out of range. -/
theorem nestedOnce_accepts :
    (∃ value, ((execute 1 (steps 6 3)).run nestedOnce).result = .ok value) ∧
      ((execute 1 (.minMarginals short)).run nestedOnce).result =
        .error (.operation (.shape "hi_costs" 6 5)) ∧
      let sliced := (Command.backward 0 silence).sliced nestedOnce.batch.sizes nestedOnce.record?
      ∀ i < nestedOnce.batch.members.length,
        ∃ part ∈ sliced i, part.cuts.length = 8 ∧ part.Inside := by
  have first : ((Operation.ascend (idle 6) ⟨2, 1, 0, 1, 0, 0⟩ : Batch.Work ℚ (Solver ℚ) _).run
      nested.batch).result.toOption.isSome = true := by decide +kernel
  obtain ⟨once, once_eq⟩ := Option.isSome_iff_exists.mp first
  rw [toOption_eq_some_iff] at once_eq
  have records : nestedOnce.records = [(0, .ascent once.2)] :=
    congrArg Session.records (recording_of_ok 0 Record.ascent once_eq).state
  have made : ∀ of record, nestedOnce.record? of = some record → record.Made := by
    intro of record found
    rw [record?, records, List.lookup_cons] at found
    cases named : of == 0 with
    | true =>
        rw [named] at found
        cases found
        exact .ascent once_eq
    | false =>
        rw [named] at found
        cases found
  have sound : ∀ member ∈ nestedOnce.batch.members, member.solver.failure = none := by
    decide +kernel
  have swept : ((execute 1 (.backward 0 silence)).run nestedOnce).result.toOption.isSome =
      true := by decide +kernel
  refine ⟨?_, ?_, fun i within => ?_⟩
  · have accepted : ((steps 6 3).violations nestedOnce.batch).all Option.isNone = true := by
      decide +kernel
    have affordable : ∀ member ∈ nestedOnce.batch.members,
        (steps 6 3).Affordable member.solver.standing := by
      show ∀ member ∈ nestedOnce.batch.members, _ ∧ (_ → _) ∧ (_ ∨ _)
      decide +kernel
    have none : ∀ violation ∈ (steps 6 3).violations nestedOnce.batch, violation = none := by
      simpa using accepted
    exact (((execute_accepts made 1 (steps 6 3)).1 trivial sound).2 none).1.mpr affordable
  · exact ((execute_accepts made 1 (.minMarginals short)).1 trivial sound).1 _ rfl
  · have answered {e : CommandError ℚ}
        (failed : ((execute 1 (.backward 0 silence)).run nestedOnce).result = .error e) :
        False := by
      rw [failed] at swept
      cases swept
    have eight : ∀ i < nestedOnce.batch.members.length,
        ((Command.backward 0 silence).sliced nestedOnce.batch.sizes nestedOnce.record? i).all
          (·.cuts.length = 8) = true := by decide +kernel
    obtain ⟨part, found, -, inside⟩ := (execute_accepts made 1 (.backward 0 silence)).2.1
      (fun ⟨_, refused, _⟩ => answered refused) answered i within
    have cuts := eight i within
    rw [Option.mem_def.mp found] at cuts
    exact ⟨part, found, of_decide_eq_true cuts, inside⟩

/-- Nothing is wrong with the call but that there is no memory for the sums. -/
theorem vast_not_acceptedExactly :
    (∀ member ∈ vast.batch.members, member.solver.failure = none) ∧
      (∀ kind, vast.batch.total kind < 2 ^ 64) ∧
      ¬((∃ value, ((execute 0 (steps 2 1)).run vast).result = .ok value) ↔
        ∀ violation ∈ (steps 2 1).violations vast.batch, violation = none) := by
  refine ⟨by decide, fun kind => by cases kind <;> decide +kernel, fun exactly => ?_⟩
  have accepted : ((steps 2 1).violations vast.batch).all Option.isNone = true := by decide +kernel
  have none : ∀ violation ∈ (steps 2 1).violations vast.batch, violation = none := by
    simpa using accepted
  obtain ⟨value, ok⟩ := exactly.mpr none
  have broken : ((execute 0 (steps 2 1)).run vast).result.toOption.isSome = false := by
    decide +kernel
  rw [ok] at broken
  cases broken

end Examples

end Session

end DualAscent
