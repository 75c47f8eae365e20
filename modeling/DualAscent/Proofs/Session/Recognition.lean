import DualAscent.Proofs.Operation.Course
import DualAscent.Proofs.Session.Origin
import Mathlib.Order.Bounds.Basic

/-!
# Recognising a batch

A backward pass first compares three lists of sizes: those on record, those that its batch froze,
and those that the solvers report now.  It goes on if all three agree.  The frozen sizes come first,
so that a solver that was exchanged in the batch is named only where they are the recorded ones.
-/

namespace DualAscent

open Procedure Batch

variable {α β γ σ : Type}

/-- The first position at which the lists differ. -/
def FirstDifference (first second : List Sizes) (i : Nat) : Prop :=
  IsLeast {j | first[j]? ≠ second[j]?} i

namespace FirstDifference

variable {size size' : Sizes} {first second : List Sizes} {i : Nat}

theorem cons_self_iff :
    FirstDifference (size :: first) (size :: second) i ↔
      ∃ j, FirstDifference first second j ∧ j + 1 = i := by
  constructor
  · rintro ⟨differs, least⟩
    cases i with
    | zero => exact absurd rfl differs
    | succ j =>
        refine ⟨j, ⟨differs, fun k other => ?_⟩, rfl⟩
        exact Nat.le_of_succ_le_succ (@least (k + 1) other)
  · rintro ⟨j, ⟨differs, least⟩, rfl⟩
    refine ⟨differs, fun k other => ?_⟩
    cases k with
    | zero => exact absurd rfl other
    | succ k => exact Nat.succ_le_succ (least other)

theorem cons_iff_of_ne (differ : size ≠ size') :
    FirstDifference (size :: first) (size' :: second) i ↔ 0 = i := by
  have zero : FirstDifference (size :: first) (size' :: second) 0 :=
    ⟨fun same => differ (Option.some.inj same), fun k _ => Nat.zero_le k⟩
  exact ⟨fun here => zero.unique here, fun same => same ▸ zero⟩

theorem not_self (sizes : List Sizes) : ¬FirstDifference sizes sizes i := fun here => here.1 rfl

end FirstDifference

/-- A search through both lists at once finds the first difference. -/
theorem findIdx?_zip_eq_some_iff {first second : List Sizes}
    (aligned : first.length = second.length) {i : Nat} :
    (first.zip second).findIdx? (fun pair => pair.1 ≠ pair.2) = some i ↔
      FirstDifference first second i := by
  induction first generalizing second i with
  | nil =>
      cases second with
      | nil => exact ⟨nofun, fun here => absurd here (FirstDifference.not_self [])⟩
      | cons size second => cases aligned
  | cons size first ih =>
      cases second with
      | nil => cases aligned
      | cons size' second =>
          rw [List.zip_cons_cons, List.findIdx?_cons]
          by_cases same : size = size'
          · subst same
            simp only [ne_eq, not_true_eq_false, decide_false, Bool.false_eq_true, if_false,
              Option.map_eq_some_iff, FirstDifference.cons_self_iff]
            exact exists_congr fun j => and_congr_left' (ih (Nat.succ.inj aligned))
          · rw [FirstDifference.cons_iff_of_ne same, if_pos (by simpa using same)]
            exact Option.some_inj

/-- Lists that differ do so at a first position. -/
theorem exists_firstDifference {first second : List Sizes} (differ : first ≠ second) :
    ∃ i, FirstDifference first second i := by
  have somewhere : ∃ j : Nat, first[j]? ≠ second[j]? := by
    by_contra nowhere
    push Not at nowhere
    exact differ (List.ext_getElem? nowhere)
  exact ⟨Nat.find somewhere, Nat.find_spec somewhere, fun j other => Nat.find_min' somewhere other⟩

namespace Batch

variable [Engine α σ] {b : Batch σ} {recorded : List Sizes} {i : Nat}

/-- The sizes that the solvers report now. -/
def reported (b : Batch σ) : List Sizes := b.solvers.map Engine.sizes

theorem stable_iff_reported : b.Stable ↔ b.reported = b.sizes := by
  rw [reported, solvers, sizes, List.map_map, List.map_inj_left]
  rfl

theorem ensureStable_eq_error_iff :
    b.ensureStable = .error (.batchChanged i) ↔ FirstDifference b.reported b.sizes i := by
  have search : b.members.findIdx? (fun member => Engine.sizes member.solver ≠ member.frozen) =
      (b.reported.zip b.sizes).findIdx? fun pair => pair.1 ≠ pair.2 := by
    rw [reported, solvers, sizes, List.map_map, List.zip_map', List.findIdx?_map]
    rfl
  have aligned : b.reported.length = b.sizes.length := by
    simp only [reported, solvers, sizes, List.length_map]
  rw [← findIdx?_zip_eq_some_iff aligned, ensureStable, search]
  cases (b.reported.zip b.sizes).findIdx? _ with
  | none => simp
  | some j => simp

/-- Frozen sizes that are not the recorded ones are noticed before solvers are asked. -/
theorem ensureMatches_of_firstDifference (aligned : b.length = recorded.length)
    (first : FirstDifference b.sizes recorded i) :
    b.ensureMatches recorded = .error (.batchChanged i) := by
  have sizes_length : b.sizes.length = recorded.length := (List.length_map _).trans aligned
  have found := (findIdx?_zip_eq_some_iff sizes_length).mpr first
  rw [ensureMatches, if_neg (not_not.mpr aligned), found]

/-- If the frozen sizes are the recorded ones, the check is whether solvers still have them. -/
theorem ensureMatches_sizes : b.ensureMatches b.sizes = b.ensureStable := by
  have length_eq : b.length = b.sizes.length := (List.length_map _).symm
  rw [ensureMatches, if_neg (not_not.mpr length_eq)]
  cases found : (b.sizes.zip b.sizes).findIdx? _ with
  | none => rfl
  | some j => exact absurd ((findIdx?_zip_eq_some_iff rfl).mp found) (FirstDifference.not_self _)

/-- For the same number of solvers, the check names the first one whose frozen sizes are not the
recorded ones, and if there is none, the first one that reports other sizes now. -/
theorem ensureMatches_eq_error_iff (aligned : b.length = recorded.length) :
    b.ensureMatches recorded = .error (.batchChanged i) ↔
      FirstDifference b.sizes recorded i ∨
        b.sizes = recorded ∧ FirstDifference b.reported recorded i := by
  by_cases same : b.sizes = recorded
  · subst same
    rw [ensureMatches_sizes, ensureStable_eq_error_iff]
    exact ⟨fun first => .inr ⟨rfl, first⟩, fun either =>
      either.elim (fun first => absurd first (FirstDifference.not_self _)) And.right⟩
  · obtain ⟨j, first⟩ := exists_firstDifference same
    rw [ensureMatches_of_firstDifference aligned first]
    constructor
    · intro named
      cases named
      exact .inl first
    · rintro (here | ⟨equal, -⟩)
      · rw [here.unique first]
      · exact absurd equal same

theorem ensureMatches_of_length_ne (differ : b.length ≠ recorded.length) :
    b.ensureMatches recorded = .error (.batchChanged (min b.length recorded.length)) :=
  if_pos differ

theorem ensureMatches_eq_ok_iff_forall :
    b.ensureMatches recorded = .ok () ↔
      b.length = recorded.length ∧
        ∀ i : Nat, b.sizes[i]? = recorded[i]? ∧ b.reported[i]? = recorded[i]? := by
  rw [ensureMatches_eq_ok_iff, stable_iff_reported]
  constructor
  · rintro ⟨rfl, stays⟩
    exact ⟨(List.length_map _).symm, fun i => ⟨rfl, by rw [stays]⟩⟩
  · rintro ⟨-, same⟩
    have frozen : b.sizes = recorded := List.ext_getElem? fun i => (same i).1
    have now : b.reported = recorded := List.ext_getElem? fun i => (same i).2
    exact ⟨frozen, now.trans frozen.symm⟩

/-- Whatever the check refuses, it names a solver. -/
theorem exists_of_ensureMatches {e : Error α} (refused : b.ensureMatches recorded = .error e) :
    ∃ i, e = .batchChanged i := by
  by_cases aligned : b.length = recorded.length
  · rw [ensureMatches, if_neg (not_not.mpr aligned), ensureStable] at refused
    split at refused
    · cases refused
      exact ⟨_, rfl⟩
    · split at refused
      · cases refused
        exact ⟨_, rfl⟩
      · cases refused
  · rw [ensureMatches_of_length_ne aligned] at refused
    cases refused
    exact ⟨_, rfl⟩

end Batch

/-- The result is not that a solver no longer has its recorded sizes. -/
def NamesNone (result : Except (Error α) β) : Prop := ∀ i, result ≠ .error (.batchChanged i)

namespace NamesNone

theorem ok (value : β) : NamesNone (.ok value : Except (Error α) β) := fun _ => nofun

theorem bind {first : Except (Error α) β} {next : β → Except (Error α) γ} (here : NamesNone first)
    (rest : ∀ value, NamesNone (next value)) : NamesNone (first >>= next) := by
  cases first with
  | error e =>
      rintro i ⟨⟩
      exact here i rfl
  | ok value => exact rest value

theorem require (layout : Layout) (length : Nat) :
    NamesNone (layout.require length : Except (Error α) Unit) := by
  intro i refused
  rw [Layout.require] at refused
  split at refused
  · cases refused
  · cases refused

theorem requireSize (name : String) (values : Array α) (expected : Nat) :
    NamesNone (requireSize name values expected) := by
  intro i refused
  rw [DualAscent.requireSize] at refused
  split at refused
  · cases refused
  · cases refused

variable [Scalar α]

theorem dense (name : String) (b : Buffer α) : NamesNone (b.dense name) := by
  intro i refused
  rw [Buffer.dense] at refused
  split at refused
  · cases refused
  · cases refused

theorem requireFiniteArrays (named : List (String × Array α)) :
    NamesNone (Operation.requireFiniteArrays named) := by
  intro i refused
  rcases Operation.requireFiniteArrays_cases named with accepted | ⟨_, _, _, tainted⟩
  · cases accepted.symm.trans refused
  · cases tainted.symm.trans refused

variable [Zero α]

theorem incoming (name : String) (gradient : Option (Buffer α)) (length : Nat) :
    NamesNone (incoming name gradient length) := by
  cases gradient with
  | none => exact .ok _
  | some b => exact .bind (.dense name b) fun _ => .bind (.requireSize _ _ _) fun _ => .ok _

theorem incomingBranches (gradients : OutputGradients α) (length : Nat) :
    NamesNone (Operation.incomingBranches gradients length) :=
  .bind (.incoming _ _ _) fun _ => .bind (.incoming _ _ _) fun _ => .ok _

end NamesNone

/-- From no state does the procedure fail because a solver no longer has its recorded sizes. -/
def Overlooks (work : Procedure (Event α) σ (Error α) β) : Prop :=
  ∀ s, NamesNone (work.run s).result

namespace Overlooks

theorem pure (value : β) : Overlooks (pure value : Procedure (Event α) σ (Error α) β) :=
  fun _ => .ok value

theorem lift {check : Except (Error α) β} (quiet : NamesNone check) :
    Overlooks (lift check : Procedure (Event α) σ (Error α) β) := fun _ => quiet

theorem bind {work : Procedure (Event α) σ (Error α) β}
    {next : β → Procedure (Event α) σ (Error α) γ} (first : Overlooks work)
    (rest : ∀ value, Overlooks (next value)) : Overlooks (work >>= next) := by
  intro s i failed
  cases answered : (work.run s).result with
  | error e =>
      rw [result_bind_of_error answered] at failed
      cases failed
      exact first s i answered
  | ok value =>
      rw [run_bind_of_ok answered] at failed
      exact rest value _ i failed

theorem log_bind {event : Event α} {next : Unit → Procedure (Event α) σ (Error α) β}
    (rest : Overlooks (next ())) : Overlooks (log event >>= next) := rest

theorem of_blames [Zero α] [Engine α σ] {i : Nat} {work : Procedure (Event α) σ (Error α) β}
    (blames : Blames i work) : Overlooks work := by
  intro s j failed
  rcases blames s _ failed with ⟨_, misuse⟩ | ⟨_, _, _, _, _, _, engine, -⟩
  · cases misuse
  · cases engine

theorem walk {ι κ : Type} {work : Nat → ι → κ → Procedure (Event α) σ (Error α) (κ × β)}
    (each : ∀ position share carry, Overlooks (work position share carry)) (position : Nat)
    (carry : κ) (shares : List ι) (members : List (Member σ)) :
    NamesNone (walk work position carry shares members).result := by
  induction shares generalizing position carry members with
  | nil => exact .ok _
  | cons share shares ih =>
      cases members with
      | nil => exact .ok _
      | cons member members =>
          intro i failed
          rw [Batch.walk] at failed
          cases answered : ((work position share carry).run member.solver).result with
          | error e =>
              simp only [answered] at failed
              cases failed
              exact each position share carry member.solver i answered
          | ok outcome =>
              simp only [answered] at failed
              exact ih _ _ _ i (map_eq_error_iff.mp failed)

theorem visitCarrying {ι κ : Type} {work : Nat → ι → κ → Procedure (Event α) σ (Error α) (κ × β)}
    (each : ∀ position share carry, Overlooks (work position share carry)) (carry : κ)
    (shares : List ι) : Overlooks (visitCarrying carry shares work) :=
  fun b => walk each 0 carry shares b.members

theorem visit {ι : Type} {work : Nat → ι → Procedure (Event α) σ (Error α) β}
    (each : ∀ position share, Overlooks (work position share)) (shares : List ι) :
    Overlooks (visit shares work) :=
  .bind (.visitCarrying (fun _ _ _ => .bind (each _ _) fun _ => .pure _) _ _) fun _ => .pure _

theorem finish [Scalar α] (named : List (String × Array α)) (gradient : β) :
    Overlooks (Procedure.lift (Operation.requireFiniteArrays named) >>= fun _ =>
      Pure.pure gradient : Procedure (Event α) σ (Error α) β) :=
  .bind (.lift (.requireFiniteArrays named)) fun _ => .pure gradient

end Overlooks

/-- The procedure compares its batch with recorded sizes before it does anything, and never
again. -/
def ChecksFirst [Engine α σ] (recorded : List Sizes) (work : Work α σ β) : Prop :=
  ∀ b, (∀ e, b.ensureMatches recorded = .error e → work.run b = ⟨[], b, .error e⟩) ∧
    (b.ensureMatches recorded = .ok () → NamesNone (work.run b).result)

namespace ChecksFirst

variable [Engine α σ] {recorded : List Sizes}

theorem intro {rest : Work α σ β} (overlooks : Overlooks rest) :
    ChecksFirst recorded
      (read >>= fun b => lift (b.ensureMatches recorded) >>= fun _ => rest : Work α σ β) := by
  intro b
  rw [run_read_bind]
  refine ⟨fun e refused => ?_, fun accepted => ?_⟩
  · rw [refused, run_lift_error_bind]
  · rw [accepted, run_lift_ok_bind]
    exact overlooks b

theorem map {work : Work α σ β} (f : β → γ) (checks : ChecksFirst recorded work) :
    ChecksFirst recorded (f <$> work) := by
  intro b
  obtain ⟨refuses, accepts⟩ := checks b
  refine ⟨fun e refused => ?_, fun accepted i failed => ?_⟩
  · have run_eq := refuses e refused
    exact (run_bind_of_error (congrArg Outcome.result run_eq)).trans (by rw [run_eq])
  · rw [result_map] at failed
    exact accepts accepted i (map_eq_error_iff.mp failed)

/-- Solvers are named only by the check. -/
theorem named_iff {work : Work α σ β} (checks : ChecksFirst recorded work) (b : Batch σ) (i : Nat) :
    (work.run b).result = .error (.batchChanged i) ↔
      b.ensureMatches recorded = .error (.batchChanged i) := by
  obtain ⟨refuses, accepts⟩ := checks b
  cases checked : b.ensureMatches recorded with
  | error e =>
      rw [refuses e checked]
      simp only [Except.error.injEq]
  | ok _ => exact ⟨fun named => absurd named (accepts checked i), nofun⟩

end ChecksFirst

namespace Operation

variable [Scalar α] [Zero α] [Engine α σ] (gradients : OutputGradients α)

theorem checksFirst_ascendBackward (record : AscentRecord α) :
    ChecksFirst record.sizes (ascendBackward record gradients : Work α σ _) := by
  refine .intro (.bind (.lift (.incomingBranches _ _)) fun _ =>
    .bind (.lift (.incoming _ _ _)) fun _ => ?_)
  have sweeps {shares : List (Span × ReplayWindow)} {outer : Costs (Array α)}
      {next : α × List (Inputs α (Array α)) → Work α σ (Inputs α (Array α))}
      (rest : ∀ outcome, Overlooks (next outcome)) :
      Overlooks (lift ((Layout.ofSizes .layer record.sizes).require record.inputs.costs.lo.size) >>=
        fun _ => (visitCarrying 0 shares fun i share carried =>
          descendOne record outer i share.1 share.2 carried) >>= next) :=
    .bind (.lift (.require _ _)) fun _ =>
      .bind (.visitCarrying (fun i _ _ => .of_blames (blames_descendOne i _ _ _ _ _)) _ _) rest
  dsimp only
  split
  · exact .log_bind (sweeps fun _ => .finish _ _)
  · exact sweeps fun _ => .finish _ _

theorem checksFirst_redistributeBackward (record : Saved (Costs (Array α))) :
    ChecksFirst record.sizes (redistributeBackward record gradients : Work α σ _) :=
  .intro (.bind (.lift (.incomingBranches _ _)) fun _ => .bind (.lift (.require _ _)) fun _ =>
    .bind (.visit (fun i _ => .of_blames (blames_redistributeOneBackward i _ _ _)) _) fun _ =>
      .finish _ _)

theorem checksFirst_minMarginalsBackward (record : Saved (Branches (Array α))) :
    ChecksFirst record.sizes (minMarginalsBackward record gradients : Work α σ _) :=
  .intro (.bind (.lift (.incoming _ _ _)) fun _ => .bind (.lift (.require _ _)) fun _ =>
    .bind (.visit (fun i _ => .of_blames (blames_minMarginalsOneBackward i _ _ _)) _) fun _ =>
      .finish _ _)

theorem checksFirst_perturbBackward (record : Saved (Perturbed (Array α))) :
    ChecksFirst record.sizes (perturbBackward record gradients : Work α σ _) :=
  .intro (.bind (.lift (.incomingBranches _ _)) fun _ => .bind (.lift (.require _ _)) fun _ =>
    .bind (.lift (.require _ _)) fun _ =>
      .bind (.visit (fun i _ => .of_blames (blames_perturbOneBackward i _ _ _ _)) _) fun _ =>
        .finish _ _)

theorem checksFirst_lowerBoundsBackward (record : Saved (Branches (Array α))) :
    ChecksFirst record.sizes (lowerBoundsBackward record gradients : Work α σ _) :=
  .intro (.bind (.lift (.require _ _)) fun _ => .bind (.lift (.incoming _ _ _)) fun _ =>
    .bind (.visit (fun i _ => .of_blames (blames_lowerBoundsOneBackward i _ _ _ _)) _) fun _ =>
      .finish _ _)

end Operation

namespace Session

section Descend

variable [Scalar α] [Zero α] [Engine α σ]

theorem checksFirst_descend (record : Record α) (gradients : OutputGradients α) :
    ChecksFirst record.sizes (descend record gradients : Batch.Work α σ _) := by
  cases record with
  | ascent record => exact (Operation.checksFirst_ascendBackward gradients record).map _
  | redistribution record =>
      exact (Operation.checksFirst_redistributeBackward gradients record).map _
  | minMarginals record => exact (Operation.checksFirst_minMarginalsBackward gradients record).map _
  | perturbation record => exact (Operation.checksFirst_perturbBackward gradients record).map _
  | bounds record => exact (Operation.checksFirst_lowerBoundsBackward gradients record).map _

/-- A backward pass recognises the batch of its forward pass, of which the record has the sizes.  It
goes on if there are as many solvers as recorded and the frozen sizes and the reported ones are the
recorded ones for each of them.  Else nothing happens but that a solver is named: the smaller of the
two numbers if there are more solvers or fewer; or else the first whose frozen sizes are not the
recorded ones; or else the first that reports others now.  No later failure names a solver so. -/
theorem descend_recognises {record : Record α} {origin : Batch σ} (left : record.LeftBy origin)
    (b : Batch σ) (gradients : OutputGradients α) :
    let recorded := record.sizes
    let check := b.ensureMatches recorded
    let outcome := (descend record gradients).run b
    (origin.sizes = recorded ∧ origin.reported = recorded) ∧
    (check = .ok () ↔ b.length = recorded.length ∧
      ∀ i : Nat, b.sizes[i]? = recorded[i]? ∧ b.reported[i]? = recorded[i]?) ∧
    (b.length ≠ recorded.length →
      check = .error (.batchChanged (min b.length recorded.length))) ∧
    (b.length = recorded.length → ∀ i, check = .error (.batchChanged i) ↔
      FirstDifference b.sizes recorded i ∨
        b.sizes = recorded ∧ FirstDifference b.reported recorded i) ∧
    (∀ e, check = .error e → (∃ i, e = .batchChanged i) ∧ outcome = ⟨[], b, .error e⟩) ∧
    ∀ i, outcome.result = .error (.batchChanged i) ↔ check = .error (.batchChanged i) := by
  intro recorded check outcome
  have checks : ChecksFirst recorded (descend record gradients : Batch.Work α σ _) :=
    checksFirst_descend record gradients
  obtain ⟨stable, same⟩ := left.origin
  refine ⟨⟨same.symm, (stable_iff_reported.mp stable).trans same.symm⟩,
    ensureMatches_eq_ok_iff_forall, ensureMatches_of_length_ne,
    fun aligned i => ensureMatches_eq_error_iff aligned, fun e refused => ?_, checks.named_iff b⟩
  exact ⟨exists_of_ensureMatches refused, (checks b).1 e refused⟩

end Descend

section Examples

/-- A solver with one chain over so many variables. -/
def lined (count : Nat) : Solver ℚ := .ofDiagrams ⟨count, [List.finRange count]⟩ none none

/-- Two solvers of the same sizes. -/
def twins : Batch (Solver ℚ) := ofSolvers [lined 1, lined 1]

/-- The second twin is exchanged. -/
def exchanged : Batch (Solver ℚ) := (twins.replace? 1 (lined 2)).getD twins

/-- A new batch of the first twin and another solver, in which the first twin is then exchanged. -/
def uprooted : Batch (Solver ℚ) := ((twins.regroup [0] [lined 2]).replace? 0 (lined 2)).getD twins

/-- No outer gradients. -/
def unasked : OutputGradients ℚ := ⟨none, none, none, none, none⟩

theorem exists_leftBy_twins : ∃ record : Record ℚ, record.LeftBy twins := by
  let zeros : Buffer ℚ := .ofArray (Array.replicate 4 0)
  have answers : ((Operation.lowerBounds ⟨zeros, zeros⟩ : Batch.Work ℚ (Solver ℚ) _).run
      twins).result.toOption.isSome = true := by decide +kernel
  obtain ⟨⟨bounds, record⟩, ok⟩ := Option.isSome_iff_exists.mp answers
  have recorded := recording_of_ok (s := ⟨twins, []⟩) 0 Record.bounds (toOption_eq_some_iff.mp ok)
  exact ⟨.bounds record, ⟨twins, []⟩, 0, _, .lowerBounds ⟨zeros, zeros⟩, bounds, rfl,
    recorded.result, congrArg Session.records recorded.state⟩

theorem exchanged_recognised : ∃ record : Record ℚ, record.LeftBy twins ∧
    (descend record unasked).run exchanged = ⟨[], exchanged, .error (.batchChanged 1)⟩ := by
  obtain ⟨record, left⟩ := exists_leftBy_twins
  obtain ⟨⟨origin, -⟩, -, -, named, refused, -⟩ := descend_recognises left exchanged unasked
  have length_eq : exchanged.length = record.sizes.length := by
    rw [← origin]
    decide +kernel
  have frozen : exchanged.sizes = record.sizes := by
    rw [← origin]
    decide +kernel
  have first : FirstDifference exchanged.reported record.sizes 1 := by
    rw [← origin]
    refine ⟨by decide +kernel, fun i differs => Nat.one_le_iff_ne_zero.mpr ?_⟩
    rintro rfl
    exact absurd rfl differs
  exact ⟨record, left, (refused _ ((named length_eq 1).mpr (.inr ⟨frozen, first⟩))).2⟩

/-- The first solver for which the frozen sizes or the reported ones are not the recorded ones. -/
def FirstChange (b : Batch (Solver ℚ)) (recorded : List Sizes) (i : Nat) : Prop :=
  IsLeast {j : Nat | b.sizes[j]? ≠ recorded[j]? ∨ b.reported[j]? ≠ recorded[j]?} i

/-- A solver with other frozen sizes is named although one before it was exchanged. -/
theorem uprooted_not_firstChange : ∃ record : Record ℚ, record.LeftBy twins ∧
    uprooted.length = record.sizes.length ∧ FirstChange uprooted record.sizes 0 ∧
    ¬∀ i, ((descend record unasked).run uprooted).result = .error (.batchChanged i) →
      FirstChange uprooted record.sizes i := by
  obtain ⟨record, left⟩ := exists_leftBy_twins
  have origin : twins.sizes = record.sizes := left.origin.2.symm
  have first : FirstChange uprooted record.sizes 0 := by
    rw [← origin]
    exact ⟨.inr (by decide +kernel), fun i _ => Nat.zero_le i⟩
  have check : uprooted.ensureMatches record.sizes = .error (.batchChanged 1) := by
    rw [← origin]
    rfl
  refine ⟨record, left, by rw [← origin]; decide +kernel, first, fun least => ?_⟩
  have named := (checksFirst_descend record unasked).named_iff uprooted 1
  exact absurd (first.unique (least 1 (named.mpr check))) (by decide)

end Examples

end Session

end DualAscent
