import DualAscent.Proofs.Segment
import DualAscent.Proofs.Session.Account

/-!
# Where records come from

A forward pass answers only for a batch whose solvers still have their frozen sizes, and it leaves
these sizes on record.
-/

namespace DualAscent

open Procedure Batch

variable {α β σ : Type}

/-- The sizes of the batch that the record is from. -/
def Record.sizes : Record α → List Sizes
  | .ascent record => record.sizes
  | .redistribution record => record.sizes
  | .minMarginals record => record.sizes
  | .perturbation record => record.sizes
  | .bounds record => record.sizes

section Forward

variable [Zero α] [Engine α σ] {b : Batch σ}

omit [Zero α] in
/-- What is resolved is the layout of the frozen sizes. -/
theorem Batch.result_resolve_bind_eq_ok_iff {kind : Segmentation} {length : Nat}
    {next : Layout → Work α σ β} {value : β} :
    ((resolve kind length >>= next).run b).result = .ok value ↔
      (b.Stable ∧ length = Sizes.total kind b.sizes) ∧
        ((next (.ofSizes kind b.sizes)).run b).result = .ok value := by
  rcases resolve_cases b kind length with ⟨e, refused⟩ | accepted
  · constructor
    · intro ok
      cases (result_bind_of_error (congrArg Outcome.result refused)).symm.trans ok
    · rintro ⟨⟨stable, covered⟩, -⟩
      cases (congrArg Outcome.result refused).symm.trans (yields_resolve stable kind covered).result
  · rw [(yields_resolve accepted.1 kind accepted.2).result_bind]
    exact (and_iff_right accepted).symm

namespace Operation

variable [Scalar α]

theorem origin_of_ascend {inputs : Inputs α (Buffer α)} {settings : AscentSettings α}
    {ascended : Ascended α} {record : AscentRecord α}
    (ok : ((ascend inputs settings : Work α σ _).run b).result = .ok (ascended, record)) :
    b.Stable ∧ record.sizes = b.sizes := by
  obtain ⟨_, -, ok⟩ := result_lift_bind_eq_ok_iff.mp ok
  obtain ⟨⟨stable, -⟩, ok⟩ := result_resolve_bind_eq_ok_iff.mp ok
  rw [run_read_bind] at ok
  obtain ⟨-, ok⟩ := result_resolve_bind_eq_ok_iff.mp ok
  obtain ⟨_, -, ok⟩ := result_bind_eq_ok_iff.mp ok
  cases ok
  exact ⟨stable, rfl⟩

theorem origin_of_redistribute {costs : Costs (Buffer α)} {answer : Costs (Array α)}
    {record : Saved (Costs (Array α))}
    (ok : ((redistribute costs : Work α σ _).run b).result = .ok (answer, record)) :
    b.Stable ∧ record.sizes = b.sizes := by
  obtain ⟨_, -, ok⟩ := result_lift_bind_eq_ok_iff.mp ok
  obtain ⟨_, -, ok⟩ := result_lift_bind_eq_ok_iff.mp ok
  obtain ⟨⟨stable, -⟩, ok⟩ := result_resolve_bind_eq_ok_iff.mp ok
  rw [run_read_bind] at ok
  obtain ⟨_, -, ok⟩ := result_bind_eq_ok_iff.mp ok
  cases ok
  exact ⟨stable, rfl⟩

theorem origin_of_minMarginals {branches : Branches (Buffer α)} {answer : Array α}
    {record : Saved (Branches (Array α))}
    (ok : ((minMarginals branches : Work α σ _).run b).result = .ok (answer, record)) :
    b.Stable ∧ record.sizes = b.sizes := by
  obtain ⟨_, -, ok⟩ := result_lift_bind_eq_ok_iff.mp ok
  obtain ⟨⟨stable, -⟩, ok⟩ := result_resolve_bind_eq_ok_iff.mp ok
  rw [run_read_bind] at ok
  obtain ⟨_, -, ok⟩ := result_bind_eq_ok_iff.mp ok
  cases ok
  exact ⟨stable, rfl⟩

theorem origin_of_perturb {inputs : Perturbed (Buffer α)} {answer : Branches (Array α)}
    {record : Saved (Perturbed (Array α))}
    (ok : ((perturb inputs : Work α σ _).run b).result = .ok (answer, record)) :
    b.Stable ∧ record.sizes = b.sizes := by
  obtain ⟨_, -, ok⟩ := result_lift_bind_eq_ok_iff.mp ok
  obtain ⟨⟨stable, -⟩, ok⟩ := result_resolve_bind_eq_ok_iff.mp ok
  obtain ⟨-, ok⟩ := result_resolve_bind_eq_ok_iff.mp ok
  rw [run_read_bind] at ok
  obtain ⟨_, -, ok⟩ := result_bind_eq_ok_iff.mp ok
  cases ok
  exact ⟨stable, rfl⟩

theorem origin_of_lowerBounds {branches : Branches (Buffer α)} {answer : Array α}
    {record : Saved (Branches (Array α))}
    (ok : ((lowerBounds branches : Work α σ _).run b).result = .ok (answer, record)) :
    b.Stable ∧ record.sizes = b.sizes := by
  obtain ⟨_, -, ok⟩ := result_lift_bind_eq_ok_iff.mp ok
  obtain ⟨⟨stable, -⟩, ok⟩ := result_resolve_bind_eq_ok_iff.mp ok
  rw [run_read_bind] at ok
  obtain ⟨-, ok⟩ := result_resolve_bind_eq_ok_iff.mp ok
  obtain ⟨_, -, ok⟩ := result_bind_eq_ok_iff.mp ok
  cases ok
  exact ⟨stable, rfl⟩

end Operation

end Forward

namespace Session

variable {s : Session α σ} {label : Nat}

theorem exists_of_recording {ρ : Type} {wrap : ρ → Record α} {forward : Batch.Work α σ (β × ρ)}
    {value : β} {record : Record α}
    (ok : ((recording label wrap forward).run s).result = .ok value)
    (kept : ((recording label wrap forward).run s).state.records = (label, record) :: s.records) :
    ∃ answer saved, (forward.run s.batch).result = .ok (answer, saved) ∧ record = wrap saved := by
  cases result : (forward.run s.batch).result with
  | error e => cases (recording_of_error label wrap result).2.symm.trans ok
  | ok pair =>
      obtain ⟨answer, saved⟩ := pair
      rw [(recording_of_ok label wrap result).state] at kept
      cases kept
      exact ⟨answer, saved, rfl, rfl⟩

end Session

section Origin

variable [Scalar α] [Zero α] [Engine α σ] {record : Record α}

/-- A backward pass takes records off the list. -/
theorem Session.records_backward_ne_cons {s : Session α σ} {label of : Nat}
    (gradients : OutputGradients α) {entry : Nat × Record α} :
    ((execute label (.backward of gradients)).run s).state.records ≠ entry :: s.records := by
  intro kept
  have length_eq := congrArg List.length kept
  rw [List.length_cons] at length_eq
  have shorter : s.records.length + 1 ≤ s.records.length := by
    rw [← length_eq, execute, run_read_bind]
    split
    · exact Nat.le_refl _
    · exact List.length_eraseP_le ..
  exact absurd shorter (Nat.not_succ_le_self _)

/-- A command on this batch has put the record on the list. -/
def Record.LeftBy (b : Batch σ) (record : Record α) : Prop :=
  ∃ (s : Session α σ) (label : Nat) (answer : Type) (command : Command α answer) (value : answer),
    let outcome := (Session.execute label command).run s
    s.batch = b ∧ outcome.result = .ok value ∧
      outcome.state.records = (label, record) :: s.records

/-- Records hold the sizes that the solvers of their batch had. -/
theorem Record.LeftBy.origin {b : Batch σ} (left : record.LeftBy b) :
    b.Stable ∧ record.sizes = b.sizes := by
  obtain ⟨s, label, answer, command, value, rfl, ok, kept⟩ := left
  cases command with
  | ascend inputs settings =>
      obtain ⟨_, _, ok, rfl⟩ := Session.exists_of_recording ok kept
      exact Operation.origin_of_ascend ok
  | redistribute costs =>
      obtain ⟨_, _, ok, rfl⟩ := Session.exists_of_recording ok kept
      exact Operation.origin_of_redistribute ok
  | minMarginals branches =>
      obtain ⟨_, _, ok, rfl⟩ := Session.exists_of_recording ok kept
      exact Operation.origin_of_minMarginals ok
  | perturb inputs =>
      obtain ⟨_, _, ok, rfl⟩ := Session.exists_of_recording ok kept
      exact Operation.origin_of_perturb ok
  | lowerBounds branches =>
      obtain ⟨_, _, ok, rfl⟩ := Session.exists_of_recording ok kept
      exact Operation.origin_of_lowerBounds ok
  | backward of gradients => exact absurd kept (Session.records_backward_ne_cons gradients)
  | round costs settings => exact absurd kept (List.ne_cons_self)
  | solution branches => exact absurd kept (List.ne_cons_self)

end Origin

end DualAscent
