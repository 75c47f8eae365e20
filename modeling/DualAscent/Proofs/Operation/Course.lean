import DualAscent.Proofs.Batch.Course
import DualAscent.Proofs.Batch.View
import DualAscent.Proofs.Finite
import DualAscent.Proofs.Operation.Elements
import DualAscent.Proofs.Refusal

/-!
# What an operation leaves behind

A batched operation is refused before any solver is asked, or it has one solver after the other do
its part.  After the last part an answer can still be refused for an entry that is not finite.
-/

namespace DualAscent

open Procedure Batch

variable {α β γ σ : Type}

/-- How a batch is left, and the failure if there is one. -/
inductive Leaves (part : Nat → Procedure (Event α) σ (Error α) Unit) (b : Batch σ) :
    Batch σ × Except (Error α) Unit → Prop
  /-- Inputs do not fit, and no solver is asked. -/
  | refused {e : Error α} (refuses : e.Refuses) : Leaves part b (b, .error e)
  /-- A part fails. -/
  | stopped {members : List (Member σ)} {e : Error α}
      (course : Course part b.members (members, .error e)) : Leaves part b (⟨members⟩, .error e)
  /-- All parts are done, and an entry of the answer is not finite. -/
  | tainted {members : List (Member σ)} (gradient : String) (count length : Nat)
      (course : Course part b.members (members, .ok ())) :
      Leaves part b (⟨members⟩, .error (.nonFinite gradient count length))
  /-- All parts are done, and there is an answer. -/
  | answered {members : List (Member σ)} (course : Course part b.members (members, .ok ())) :
      Leaves part b (⟨members⟩, .ok ())

/-- The procedure leaves its state as it is, and fails at most for an entry that is not finite. -/
def Concludes (work : Work α σ β) : Prop :=
  ∀ b, (work.run b).state = b ∧ ∀ e, (work.run b).result = .error e →
    ∃ gradient count length, e = .nonFinite gradient count length

namespace Concludes

theorem pure (value : β) : Concludes (pure value : Work α σ β) := by
  refine fun _ => ⟨rfl, ?_⟩
  rintro _ ⟨⟩

theorem log_bind {event : Event α} {next : Unit → Work α σ β} (rest : Concludes (next ())) :
    Concludes (log event >>= next) := rest

theorem requireFiniteArrays_bind [Scalar α] {named : List (String × Array α)}
    {next : Unit → Work α σ β} (rest : Concludes (next ())) :
    Concludes (lift (Operation.requireFiniteArrays named) >>= next) := by
  intro b
  rcases Operation.requireFiniteArrays_cases named with
    accepted | ⟨gradient, count, length, refused⟩
  · rw [accepted]
    exact rest b
  · rw [refused]
    refine ⟨rfl, ?_⟩
    rintro _ ⟨⟩
    exact ⟨gradient, count, length, rfl⟩

end Concludes

namespace Leaves

variable {part : Nat → Procedure (Event α) σ (Error α) Unit} {b : Batch σ}

theorem quiet_bind {first : Work α σ γ} {next : γ → Work α σ β} (still : (first.run b).state = b)
    (refusing : Refusing (first.run b).result)
    (rest : ∀ value, (first.run b).result = .ok value → Leaves part b ((next value).run b).fate) :
    Leaves part b ((first >>= next).run b).fate := by
  rw [fate_bind, still]
  cases answered : (first.run b).result with
  | error e => exact .refused (refusing e answered)
  | ok value => exact rest value answered

theorem lift_bind {check : Except (Error α) γ} {next : γ → Work α σ β} (refusing : Refusing check)
    (rest : ∀ value, check = .ok value → Leaves part b ((next value).run b).fate) :
    Leaves part b ((lift check >>= next).run b).fate :=
  quiet_bind rfl refusing rest

theorem log_bind {event : Event α} {next : Unit → Work α σ β}
    (rest : Leaves part b ((next ()).run b).fate) :
    Leaves part b ((log event >>= next).run b).fate := rest

theorem read_bind {next : Batch σ → Work α σ β} (rest : Leaves part b ((next b).run b).fate) :
    Leaves part b ((read >>= next).run b).fate := rest

theorem resolve_bind [Engine α σ] {kind : Segmentation} {length : Nat} {next : Layout → Work α σ β}
    (rest : Leaves part b ((next (.ofSizes kind b.sizes)).run b).fate) :
    Leaves part b ((resolve kind length >>= next).run b).fate := by
  have result : ((resolve kind length : Work α σ Layout).run b).result =
      (b.ensureStable >>= fun _ => (Layout.ofSizes kind b.sizes).require length >>= fun _ =>
        .ok (.ofSizes kind b.sizes)) := by
    rw [resolve, run_read_bind]
    cases b.ensureStable with
    | error e => rfl
    | ok _ =>
        rw [run_lift_ok_bind]
        dsimp only
        cases (Layout.ofSizes kind b.sizes).require (α := α) length with
        | error e => rfl
        | ok _ => rfl
  have still : Fixes id (resolve kind length : Work α σ Layout) := fixes_resolve kind length
  refine quiet_bind (still b) ?_ fun layout resolved => ?_
  · rw [result]
    exact .bind b.refusing_ensureStable fun _ => .bind (refusing_require _ _) fun _ => .ok _
  · rw [result] at resolved
    obtain ⟨_, -, resolved⟩ := bind_eq_ok_iff.mp resolved
    obtain ⟨_, -, same⟩ := bind_eq_ok_iff.mp resolved
    cases same
    exact rest

theorem of_course {first : Work α σ γ} {next : γ → Work α σ β}
    (course : let fate := (first.run b).fate; Course part b.members (fate.1.members, fate.2))
    (concludes : ∀ value, Concludes (next value)) :
    Leaves part b ((first >>= next).run b).fate := by
  have course : Course part b.members
      ((first.run b).state.members, (first.run b).result.map fun _ => ()) := course
  rw [fate_bind]
  cases answered : (first.run b).result with
  | error e =>
      rw [answered] at course
      exact .stopped course
  | ok value =>
      rw [answered] at course
      obtain ⟨kept, fails⟩ := concludes value (first.run b).state
      have fate : ((next value).run (first.run b).state).fate = ((first.run b).state,
          ((next value).run (first.run b).state).result.map fun _ => ()) :=
        congrArg (·, _) kept
      dsimp only
      rw [fate]
      cases concluded : ((next value).run (first.run b).state).result with
      | error e =>
          obtain ⟨gradient, count, length, rfl⟩ := fails e concluded
          exact .tainted gradient count length course
      | ok answer => exact .answered course

section Inversion

variable {left : Batch σ} {e : Error α}

theorem of_ok (leaves : Leaves part b (left, .ok ())) :
    Passes part b.members.length b.members ∧ left = completed part b := by
  cases leaves with
  | answered course =>
      cases course with
      | finished passes => exact ⟨passes, congrArg Batch.mk (reached_length b)⟩

theorem result_of_first {result : Except (Error α) Unit} {i : Nat} {member : Member σ}
    (leaves : Leaves part b (left, result)) (found : b.members[i]? = some member)
    (before : Passes part i b.members)
    (failed : ((part i).run member.solver).result = .error e) :
    result = .error e ∨ ∃ e' : Error α, e'.Refuses ∧ result = .error e' := by
  cases leaves with
  | refused refuses => exact .inr ⟨_, refuses, rfl⟩
  | stopped course => exact .inl (course.result_of_first found before failed)
  | tainted _ _ _ course => cases course.result_of_first found before failed
  | answered course => cases course.result_of_first found before failed

variable [Zero α] [Engine α σ] (blames : ∀ i, Blames i (part i))
include blames

/-- A part that fails is blamed on its solver, and all parts before it succeed. -/
theorem cases_of_error (leaves : Leaves part b (left, .error e)) :
    e.Refuses ∧ left = b ∨
      (∃ gradient count length, e = .nonFinite gradient count length) ∧
        Passes part b.members.length b.members ∧ left = completed part b ∨
      (∃ cause, e = .misuse cause) ∨
      ∃ i member, (∃ routine context source, e = .engine i routine context source) ∧
        b.members[i]? = some member ∧ Passes part i b.members ∧
        ((part i).run member.solver).result = .error e ∧
        left.members = reached part (i + 1) b.members := by
  cases leaves with
  | refused refuses => exact .inl ⟨refuses, rfl⟩
  | tainted gradient count length course =>
      obtain ⟨passes, same⟩ := of_ok (.answered course)
      exact .inr (.inl ⟨⟨gradient, count, length, rfl⟩, passes, same⟩)
  | stopped course =>
      cases course with
      | @stopped i member _ found before failed =>
          rcases blames i member.solver e failed with
            misuse | ⟨routine, context, source, -, -, -, same, -⟩
          · exact .inr (.inr (.inl misuse))
          · exact .inr (.inr (.inr ⟨i, member, ⟨routine, context, source, same⟩, found, before,
              failed, rfl⟩))

theorem of_refuses (leaves : Leaves part b (left, .error e)) (refuses : e.Refuses) : left = b := by
  rcases cases_of_error blames leaves with
    ⟨-, same⟩ | ⟨⟨_, _, _, rfl⟩, -⟩ | ⟨_, rfl⟩ | ⟨_, _, ⟨_, _, _, rfl⟩, -⟩
  · exact same
  · cases refuses
  · cases refuses
  · cases refuses

theorem of_nonFinite {gradient : String} {count length : Nat}
    (leaves : Leaves part b (left, .error (.nonFinite gradient count length))) :
    Passes part b.members.length b.members ∧ left = completed part b := by
  rcases cases_of_error blames leaves with
    ⟨refuses, -⟩ | ⟨-, passes, same⟩ | ⟨_, misuse⟩ | ⟨_, _, ⟨_, _, _, engine⟩, -⟩
  · cases refuses
  · exact ⟨passes, same⟩
  · cases misuse
  · cases engine

theorem of_engine {i : Nat} {routine : Routine} {context : Context α} {source : EngineError}
    (leaves : Leaves part b (left, .error (.engine i routine context source))) :
    ∃ member, b.members[i]? = some member ∧ Passes part i b.members ∧
      ((part i).run member.solver).result = .error (.engine i routine context source) ∧
      left.members = reached part (i + 1) b.members := by
  rcases cases_of_error blames leaves with
    ⟨refuses, -⟩ | ⟨⟨_, _, _, finite⟩, -⟩ | ⟨_, misuse⟩ |
      ⟨j, member, ⟨_, _, _, engine⟩, found, before, failed, same⟩
  · cases refuses
  · cases finite
  · cases misuse
  · cases engine
    exact ⟨member, found, before, failed, same⟩

end Inversion

end Leaves

namespace Operation

section Blames

variable [Zero α] [Engine α σ] (i : Nat)

theorem blames_ascendOne (inputs : Inputs α (Array α)) (settings : AscentSettings α)
    (layers bdds : Span) : Blames i (ascendOne inputs settings i layers bdds : Procedure _ σ _ _) :=
  .bind (.log i _) fun _ => .bind (.attempt i _ _) fun _ => .bind (.attempt i _ _) fun _ =>
    .bind (.attempt i _ _) fun _ => .pure i _

theorem blames_redistributeOne (costs : Costs (Array α)) (layers : Span) :
    Blames i (redistributeOne costs i layers : Procedure _ σ _ _) :=
  .bind (.log i _) fun _ => .bind (.attempt i _ _) fun _ => .bind (.attempt i _ _) fun _ =>
    .attempt i _ _

theorem blames_redistributeOneBackward (costs : Costs (Array α)) (outer : Branches (Array α))
    (layers : Span) : Blames i (redistributeOneBackward costs outer i layers : Procedure _ σ _ _) :=
  .bind (.attempt i _ _) fun _ => .attempt i _ _

theorem blames_roundOne (costs : Costs (Array α)) (settings : RoundingSettings α) (layers : Span) :
    Blames i (roundOne costs settings i layers : Procedure _ σ _ _) :=
  .bind (.log i _) fun _ => .bind (.attempt i _ _) fun _ => .attempt i _ _

theorem blames_logGradients (named : List (String × Array α)) :
    Blames i (logGradients i named : Procedure _ σ _ _) := by
  intro s e failed
  cases (yields_logGradients i named s).result.symm.trans failed

theorem blames_minMarginalsOne (branches : Branches (Array α)) (layers : Span) :
    Blames i (minMarginalsOne branches i layers : Procedure _ σ _ _) :=
  .bind (.log i _) fun _ => .bind (.attempt i _ _) fun _ => .attempt i _ _

theorem blames_minMarginalsOneBackward (branches : Branches (Array α)) (outer : Array α)
    (layers : Span) :
    Blames i (minMarginalsOneBackward branches outer i layers : Procedure _ σ _ _) :=
  .bind (.attempt i _ _) fun _ => .attempt i _ _

theorem blames_perturbOne (inputs : Perturbed (Array α)) (layers slots : Span) :
    Blames i (perturbOne inputs i layers slots : Procedure _ σ _ _) :=
  .bind (.log i _) fun _ => .bind (.attempt i _ _) fun _ => .bind (.attempt i _ _) fun _ =>
    .bind (.attempt i _ _) fun _ => .pure i _

theorem blames_perturbOneBackward (inputs : Perturbed (Array α)) (outer : Branches (Array α))
    (layers slots : Span) :
    Blames i (perturbOneBackward inputs outer i layers slots : Procedure _ σ _ _) :=
  .bind (.attempt i _ _) fun _ => .attempt i _ _

theorem blames_lowerBoundsOne (branches : Branches (Array α)) (layers bdds : Span) :
    Blames i (lowerBoundsOne branches i layers bdds : Procedure _ σ _ _) :=
  .bind (.log i _) fun _ => .bind (.attempt i _ _) fun _ => .attempt i _ _

theorem blames_lowerBoundsOneBackward (branches : Branches (Array α)) (outer : Array α)
    (layers bdds : Span) :
    Blames i (lowerBoundsOneBackward branches outer i layers bdds : Procedure _ σ _ _) :=
  .bind (.attempt i _ _) fun _ => .attempt i _ _

theorem blames_descendOne (record : AscentRecord α) (outer : Costs (Array α)) (layers : Span)
    (window : ReplayWindow) (carried : α) :
    Blames i (descendOne record outer i layers window carried : Procedure _ σ _ _) :=
  .bind (.log i _) fun _ => .bind (.attempt i _ _) fun _ => .bind (blames_logGradients i _) fun _ =>
    .bind (.attempt i _ _) fun _ => .bind (blames_logGradients i _) fun _ => .pure i _

theorem blames_solutionOne [Scalar α] (branches : Branches (Array α)) (layers : Span) :
    Blames i (solutionOne branches i layers : Procedure _ σ _ _) :=
  .bind (.attempt i _ _) fun _ => .attempt i _ _

end Blames

variable [Scalar α] [Zero α] [Engine α σ] (b : Batch σ)

theorem leaves_ascend (inputs : Inputs α (Buffer α)) (settings : AscentSettings α) :
    let shares := (Layout.ofSizes .layer b.sizes).spans.zip (Layout.ofSizes .bdd b.sizes).spans
    Leaves (assigned shares fun i share =>
        ascendOne (inputs.map Buffer.elements) settings i share.1 share.2) b
      ((ascend inputs settings : Work α σ _).run b).fate := by
  refine .lift_bind (refusing_denseInputs inputs) fun values dense => ?_
  rw [elements_of_denseInputs dense]
  refine .resolve_bind (.read_bind (.resolve_bind ?_))
  refine .of_course (course_visit _ _ b) fun results => ?_
  exact .log_bind (.pure _)

theorem leaves_redistribute (costs : Costs (Buffer α)) :
    Leaves (assigned (Layout.ofSizes .layer b.sizes).spans
        (redistributeOne (costs.map Buffer.elements))) b
      ((redistribute costs : Work α σ _).run b).fate := by
  refine .lift_bind costs.refusing_dense fun values dense => ?_
  rw [Costs.elements_of_dense dense]
  refine .lift_bind (Costs.refusing_requireAligned _) fun _ _ => .resolve_bind (.read_bind ?_)
  exact .of_course (course_visit _ _ b) fun _ => .pure _

theorem leaves_round (costs : Costs (Buffer α)) (settings : RoundingSettings α) :
    Leaves (assigned (Layout.ofSizes .layer b.sizes).spans
        (roundOne (costs.map Buffer.elements) settings)) b
      ((round costs settings : Work α σ _).run b).fate := by
  refine .lift_bind costs.refusing_dense fun values dense => ?_
  rw [Costs.elements_of_dense dense]
  refine .lift_bind (Costs.refusing_requireAligned _) fun _ _ => .resolve_bind ?_
  refine .of_course (course_visit _ _ b) fun results => ?_
  exact .log_bind (.pure _)

theorem leaves_minMarginals (branches : Branches (Buffer α)) :
    Leaves (assigned (Layout.ofSizes .layer b.sizes).spans
        (minMarginalsOne (branches.map Buffer.elements))) b
      ((minMarginals branches : Work α σ _).run b).fate := by
  refine .lift_bind (refusing_denseBranches branches) fun values dense => ?_
  rw [elements_of_denseBranches dense]
  refine .resolve_bind (.read_bind ?_)
  exact .of_course (course_visit _ _ b) fun _ => .pure _

theorem leaves_perturb (inputs : Perturbed (Buffer α)) :
    let shares := (Layout.ofSizes .layer b.sizes).spans.zip (Layout.ofSizes .slot b.sizes).spans
    Leaves (assigned shares fun i share => perturbOne inputs.elements i share.1 share.2) b
      ((perturb inputs : Work α σ _).run b).fate := by
  refine .lift_bind (refusing_densePerturbed inputs) fun values dense => ?_
  rw [elements_of_densePerturbed dense]
  refine .resolve_bind (.resolve_bind (.read_bind ?_))
  exact .of_course (course_visit _ _ b) fun _ => .pure _

theorem leaves_lowerBounds (branches : Branches (Buffer α)) :
    let shares := (Layout.ofSizes .layer b.sizes).spans.zip (Layout.ofSizes .bdd b.sizes).spans
    Leaves (assigned shares fun i share =>
        lowerBoundsOne (branches.map Buffer.elements) i share.1 share.2) b
      ((lowerBounds branches : Work α σ _).run b).fate := by
  refine .lift_bind (refusing_denseBranches branches) fun values dense => ?_
  rw [elements_of_denseBranches dense]
  refine .resolve_bind (.read_bind (.resolve_bind ?_))
  exact .of_course (course_visit _ _ b) fun _ => .pure _

theorem leaves_solution (branches : Branches (Buffer α)) :
    Leaves (assigned (Layout.ofSizes .layer b.sizes).spans
        (solutionOne (branches.map Buffer.elements))) b
      ((solution branches : Work α σ _).run b).fate := by
  refine .lift_bind (refusing_denseBranches branches) fun values dense => ?_
  rw [elements_of_denseBranches dense]
  refine .resolve_bind ?_
  exact .of_course (course_visit _ _ b) fun _ => .pure _

variable (gradients : OutputGradients α)

theorem leaves_redistributeBackward (record : Saved (Costs (Array α))) :
    Leaves (assigned (Layout.ofSizes .layer record.sizes).spans (redistributeOneBackward
        record.inputs (gradients.elements.branches record.inputs.lo.size))) b
      ((redistributeBackward record gradients : Work α σ _).run b).fate := by
  refine .read_bind (.lift_bind (b.refusing_ensureMatches _) fun _ _ => ?_)
  refine .lift_bind (refusing_incomingBranches gradients _) fun outer accepted => ?_
  rw [elements_of_incomingBranches accepted]
  refine .lift_bind (refusing_require _ _) fun _ _ => ?_
  refine .of_course (course_visit _ _ b) fun parts => ?_
  exact .requireFiniteArrays_bind (.pure _)

theorem leaves_minMarginalsBackward (record : Saved (Branches (Array α))) :
    Leaves (assigned (Layout.ofSizes .layer record.sizes).spans (minMarginalsOneBackward
        record.inputs (DenseGradients.orZeros gradients.elements.values record.inputs.lo.size))) b
      ((minMarginalsBackward record gradients : Work α σ _).run b).fate := by
  refine .read_bind (.lift_bind (b.refusing_ensureMatches _) fun _ _ => ?_)
  refine .lift_bind (refusing_incoming _ gradients.values _) fun outer accepted => ?_
  rw [elements_of_incoming accepted]
  refine .lift_bind (refusing_require _ _) fun _ _ => ?_
  refine .of_course (course_visit _ _ b) fun parts => ?_
  exact .requireFiniteArrays_bind (.pure _)

theorem leaves_perturbBackward (record : Saved (Perturbed (Array α))) :
    let shares :=
      (Layout.ofSizes .layer record.sizes).spans.zip (Layout.ofSizes .slot record.sizes).spans
    let outer := gradients.elements.branches record.inputs.costs.lo.size
    Leaves (assigned shares fun i share =>
        perturbOneBackward record.inputs outer i share.1 share.2) b
      ((perturbBackward record gradients : Work α σ _).run b).fate := by
  refine .read_bind (.lift_bind (b.refusing_ensureMatches _) fun _ _ => ?_)
  refine .lift_bind (refusing_incomingBranches gradients _) fun outer accepted => ?_
  rw [elements_of_incomingBranches accepted]
  refine .lift_bind (refusing_require _ _) fun _ _ => ?_
  refine .lift_bind (refusing_require _ _) fun _ _ => ?_
  refine .of_course (course_visit _ _ b) fun parts => ?_
  exact .requireFiniteArrays_bind (.pure _)

theorem leaves_lowerBoundsBackward (record : Saved (Branches (Array α))) :
    let layers := (Layout.ofSizes .layer record.sizes).spans
    let bdds := Layout.ofSizes .bdd record.sizes
    let outer := DenseGradients.orZeros gradients.elements.values bdds.total
    Leaves (assigned (layers.zip bdds.spans) fun i share =>
        lowerBoundsOneBackward record.inputs outer i share.1 share.2) b
      ((lowerBoundsBackward record gradients : Work α σ _).run b).fate := by
  refine .read_bind (.lift_bind (b.refusing_ensureMatches _) fun _ _ => ?_)
  refine .lift_bind (refusing_require _ _) fun _ _ => ?_
  refine .lift_bind (refusing_incoming _ _ _) fun outer accepted => ?_
  rw [elements_of_incoming_packed accepted]
  refine .of_course (course_visit _ _ b) fun parts => ?_
  exact .requireFiniteArrays_bind (.pure _)

end Operation

section Carried

variable [Scalar α] [Zero α] [Add α] [Sub α] [Mul α] [Neg α]

omit [Scalar α] in
/-- What is carried into the gradient of a shared factor matters only to the answer. -/
theorem Solver.fate_iterateBackward_shared (weights : Array α) (damping : Damping α (Array α))
    (costs : Costs (Array α)) (ofWeights : Array α) (carried carried' : α) (window : ReplayWindow)
    (caches : Nat) (s : Solver α) :
    ((iterateBackward weights damping ⟨costs, ofWeights, .shared carried⟩ window
        caches).run s).fate =
      ((iterateBackward weights damping ⟨costs, ofWeights, .shared carried'⟩ window
        caches).run s).fate := by
  rw [iterateBackward_eq, iterateBackward_eq]
  refine fate_bind_congr (fun _ _ => fate_bind_congr (fun _ _ => fate_bind_congr (fun _ _ =>
    fate_bind_congr (fun _ _ => fate_bind_congr (fun _ _ => fate_bind_congr (fun _ _ =>
      fate_bind_congr (fun _ t => ?_) _) _) _) _) _) _) s
  simp only [dampingSegment, run_lift_ok_bind]
  split
  · rfl
  · rfl

namespace Operation

theorem fate_descendOne (record : AscentRecord α) (outer : Costs (Array α)) (i : Nat)
    (layers : Span) (window : ReplayWindow) (carried carried' : α) (s : Solver α) :
    ((descendOne record outer i layers window carried).run s).fate =
      ((descendOne record outer i layers window carried').run s).fate := by
  refine fate_bind_congr (fun _ _ => fate_bind_congr (fun _ _ => fate_bind_congr (fun _ t => ?_)
    _) _) s
  have quiet (swept : Inputs α (Array α)) (carried : α) (t : Solver α) :
      ((logGradients i
        [("grad_lo_costs_out", swept.costs.lo), ("grad_hi_costs_out", swept.costs.hi),
          ("grad_def_mm_out", swept.costs.deferred), ("grad_dist_weights_out", swept.weights)] >>=
        fun _ => pure (swept.damping.shared?.getD carried, swept) :
          Procedure (Event α) (Solver α) (Error α) (α × Inputs α (Array α))).run t).fate =
        (t, .ok ()) := by
    obtain ⟨events, run_eq⟩ := (yields_logGradients i _ t).run_bind _
    rw [run_eq]
    rfl
  rw [fate_bind_of_quiet fun swept => quiet swept carried,
    fate_bind_of_quiet fun swept => quiet swept carried']
  cases (record.inputs.map layers.slice).damping with
  | shared value =>
      apply fate_attempt_congr
      · rfl
      · exact Solver.fate_iterateBackward_shared _ _ _ _ carried carried' window record.caches t
  | perLayer factors => rfl

/-- The solvers take up what the ones before carry on, but do the same without it. -/
theorem leaves_ascendBackward (b : Batch (Solver α)) (record : AscentRecord α)
    (gradients : OutputGradients α) :
    let windows := record.realized.map (ReplayWindow.ofRun · record.tracked)
    let shares := (Layout.ofSizes .layer record.sizes).spans.zip windows
    let outer := gradients.elements.costs record.inputs.costs.lo.size
    Leaves (assigned shares fun i share => descendOne record outer i share.1 share.2 0) b
      ((ascendBackward record gradients).run b).fate := by
  intro windows shares outer
  refine .read_bind (.lift_bind (b.refusing_ensureMatches _) fun _ _ => ?_)
  refine .lift_bind (refusing_incomingBranches gradients _) fun branches accepted => ?_
  rw [elements_of_incomingBranches accepted]
  refine .lift_bind (refusing_incoming _ gradients.deferred _) fun deferred accepted => ?_
  rw [elements_of_incoming accepted]
  have sweeps (next : α × List (Inputs α (Array α)) → Work α (Solver α) (Inputs α (Array α)))
      (concludes : ∀ outcome, Concludes (next outcome)) :
      Leaves (assigned shares fun i share => descendOne record outer i share.1 share.2 0) b
        ((lift ((Layout.ofSizes .layer record.sizes).require record.inputs.costs.lo.size) >>=
          fun _ => visitCarrying 0 shares (descendShare record outer) >>= next).run b).fate := by
    refine .lift_bind (refusing_require _ _) fun _ _ => .of_course ?_ concludes
    refine course_visitCarrying shares _ _ (fun i share carried s => ?_) 0 b
    exact fate_descendOne record outer i share.1 share.2 carried 0 s
  dsimp only
  split
  · exact .log_bind (sweeps _ fun _ => .requireFiniteArrays_bind (.pure _))
  · exact sweeps _ fun _ => .requireFiniteArrays_bind (.pure _)

end Operation

end Carried

end DualAscent
