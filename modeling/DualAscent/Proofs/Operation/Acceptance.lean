import DualAscent.Proofs.Operation.Course
import DualAscent.Proofs.Operation.Recorded
import DualAscent.Proofs.Violations

/-!
# Which calls are accepted

A forward pass first goes through its conditions: on the buffers, on the solvers, and on how both
fit together.  The first one that is violated ends it without a solver being asked; if none is, what
becomes of the batch is up to the traversal.  A backward pass that is not refused has gradients and
segments of the recorded lengths.
-/

namespace DualAscent

open Procedure Batch

variable {α β γ σ : Type}

/-- The first condition that is violated ends the work before it begins. -/
def screened (violations : List (Option (Error α))) (b : Batch σ)
    (left : Batch σ × Except (Error α) Unit) : Batch σ × Except (Error α) Unit :=
  match report violations with
  | .error e => (b, .error e)
  | .ok _ => left

section Screened

variable {violations : List (Option (Error α))} {b : Batch σ}
  {left : Batch σ × Except (Error α) Unit}

theorem screened_of_error {e : Error α} (violated : report violations = .error e) :
    screened violations b left = (b, .error e) := by
  rw [screened, violated]

theorem screened_of_ok (accepted : report violations = .ok ()) :
    screened violations b left = left := by
  rw [screened, accepted]

theorem screened_screened (first second : List (Option (Error α))) :
    screened first b (screened second b left) = screened (first ++ second) b left := by
  simp only [screened, report_append]
  cases report first with
  | error e => rfl
  | ok _ => rfl

/-- To check a condition once more makes no difference. -/
theorem screened_twice (conditions : List (Option (Error α)))
    (first second third : Option (Error α)) :
    screened (conditions ++ [first, second, first, third]) b left =
      screened (conditions ++ [first, second, third]) b left := by
  rw [← screened_screened, ← screened_screened]
  refine congrArg (screened conditions b) ?_
  cases first with
  | none => rfl
  | some e => rfl

theorem screened_none (conditions : List (Option (Error α))) (first second : Option (Error α)) :
    screened (conditions ++ [first, second, none]) b left =
      screened (conditions ++ [first, second]) b left := by
  rw [← screened_screened, ← screened_screened]
  exact congrArg (screened conditions b) (screened_screened [first, second] [none]).symm

end Screened

namespace Batch

variable [Engine α σ] (b : Batch σ)

theorem ensureStable_eq : b.ensureStable = report [b.changeViolation] := by
  rw [ensureStable, changeViolation]
  cases b.members.findIdx? _ with
  | none => rfl
  | some i => rfl

theorem changeViolation_eq_none_iff : b.changeViolation = none ↔ b.Stable := by
  rw [← ensureStable_eq_ok_iff, ensureStable_eq, report_eq_ok_iff, List.forall_mem_singleton]

omit [Engine α σ] in
theorem require_eq (kind : Segmentation) (length : Nat) :
    (Layout.ofSizes kind b.sizes).require length =
      report [b.totalViolation (α := α) kind length] := by
  rw [Layout.require, Layout.fits, Layout.total_ofSizes, ← total_eq_sum, totalViolation]
  split
  · next covered =>
      rw [if_pos (of_decide_eq_true covered)]
      rfl
  · next uncovered =>
      rw [if_neg fun same => uncovered (decide_eq_true same)]
      rfl

omit [Engine α σ] in
theorem totalViolation_eq_none_iff {kind : Segmentation} {length : Nat} :
    b.totalViolation (α := α) kind length = none ↔ length = Sizes.total kind b.sizes := by
  rw [totalViolation, ← total_eq_sum]
  split
  · next covered => simp [covered]
  · next uncovered => simpa using Ne.symm uncovered

omit [Engine α σ] in
theorem totalViolation_total (kind : Segmentation) :
    b.totalViolation (α := α) kind (b.total kind) = none :=
  if_pos rfl

theorem fate_resolve_bind (kind : Segmentation) (length : Nat) (next : Layout → Work α σ β) :
    ((resolve kind length >>= next).run b).fate =
      screened [b.changeViolation, b.totalViolation kind length] b
        ((next (.ofSizes kind b.sizes)).run b).fate := by
  rw [fate_bind, screened, report_cons_cons, ← ensureStable_eq, ← require_eq, resolve,
    run_read_bind]
  cases b.ensureStable with
  | error e => rfl
  | ok _ =>
      rw [run_lift_ok_bind]
      dsimp only
      cases (Layout.ofSizes kind b.sizes).require (α := α) length with
      | error e => rfl
      | ok _ => rfl

end Batch

/-- The work is screened for these conditions, and takes the course of its parts if it passes. -/
def Screens (part : Nat → Procedure (Event α) σ (Error α) Unit)
    (violations : List (Option (Error α))) (b : Batch σ)
    (fate : Batch σ × Except (Error α) Unit) : Prop :=
  ∃ left : Batch σ × Except (Error α) Unit, Course part b.members (left.1.members, left.2) ∧
    fate = screened violations b left

namespace Screens

variable {part : Nat → Procedure (Event α) σ (Error α) Unit} {b : Batch σ}
  {violations : List (Option (Error α))}

theorem of_course {first : Work α σ γ} {next : γ → Work α σ β}
    (course : let fate := (first.run b).fate; Course part b.members (fate.1.members, fate.2))
    (quiet : ∀ value t, ((next value).run t).fate = (t, .ok ())) :
    Screens part [] b ((first >>= next).run b).fate :=
  ⟨_, course, fate_bind_of_quiet quiet b⟩

theorem read_bind {next : Batch σ → Work α σ β}
    (rest : Screens part violations b ((next b).run b).fate) :
    Screens part violations b ((read >>= next).run b).fate := rest

theorem lift_bind {conditions : List (Option (Error α))} {check : Except (Error α) γ} {values : γ}
    (checks : check = report conditions >>= fun _ => .ok values) {next : γ → Work α σ β}
    (rest : Screens part violations b ((next values).run b).fate) :
    Screens part (conditions ++ violations) b ((lift check >>= next).run b).fate := by
  obtain ⟨left, course, same⟩ := rest
  refine ⟨left, course, ?_⟩
  rw [← screened_screened, ← same, checks, screened]
  cases report conditions with
  | error e => rfl
  | ok _ => rfl

theorem resolve_bind [Engine α σ] {kind : Segmentation} {length long : Nat} (covers : length = long)
    {next : Layout → Work α σ β}
    (rest : Screens part violations b ((next (.ofSizes kind b.sizes)).run b).fate) :
    Screens part (b.changeViolation :: b.totalViolation kind long :: violations) b
      ((resolve kind length >>= next).run b).fate := by
  obtain ⟨left, course, same⟩ := rest
  subst covers
  refine ⟨left, course, ?_⟩
  rw [b.fate_resolve_bind, same, screened_screened]
  rfl

theorem congr {fate : Batch σ × Except (Error α) Unit} {violations' : List (Option (Error α))}
    (same : ∀ left, screened violations b left = screened violations' b left)
    (screens : Screens part violations b fate) : Screens part violations' b fate := by
  obtain ⟨left, course, rfl⟩ := screens
  exact ⟨left, course, same left⟩

end Screens

namespace Operation

variable [Scalar α] [Zero α] [Engine α σ] (b : Batch σ)

theorem screens_ascend (inputs : Inputs α (Buffer α)) (settings : AscentSettings α) :
    let shares := (Layout.ofSizes .layer b.sizes).spans.zip (Layout.ofSizes .bdd b.sizes).spans
    Screens (assigned shares fun i share =>
        ascendOne (inputs.map Buffer.elements) settings i share.1 share.2)
      (inputs.violations ++ [b.changeViolation, b.totalViolation .layer inputs.costs.lo.length]) b
      ((ascend inputs settings : Work α σ _).run b).fate := by
  refine .congr (fun left => ?_) (.lift_bind (denseInputs_eq inputs) (.resolve_bind
    inputs.costs.lo.size_elements (.read_bind (.resolve_bind rfl (.of_course (course_visit _ _ b)
      fun _ _ => rfl)))))
  rw [totalViolation_total, screened_twice, screened_none]

theorem screens_redistribute (costs : Costs (Buffer α)) :
    Screens (assigned (Layout.ofSizes .layer b.sizes).spans
        (redistributeOne (costs.map Buffer.elements)))
      (costs.violations ++ [b.changeViolation, b.totalViolation .layer costs.lo.length]) b
      ((redistribute costs : Work α σ _).run b).fate := by
  exact .lift_bind costs.dense_eq (.lift_bind costs.requireAligned_elements (.resolve_bind
    costs.lo.size_elements (.read_bind (.of_course (course_visit _ _ b) fun _ _ => rfl))))

theorem screens_round (costs : Costs (Buffer α)) (settings : RoundingSettings α) :
    Screens (assigned (Layout.ofSizes .layer b.sizes).spans
        (roundOne (costs.map Buffer.elements) settings))
      (costs.violations ++ [b.changeViolation, b.totalViolation .layer costs.lo.length]) b
      ((round costs settings : Work α σ _).run b).fate := by
  exact .lift_bind costs.dense_eq (.lift_bind costs.requireAligned_elements (.resolve_bind
    costs.lo.size_elements (.of_course (course_visit _ _ b) fun _ _ => rfl)))

theorem screens_minMarginals (branches : Branches (Buffer α)) :
    Screens (assigned (Layout.ofSizes .layer b.sizes).spans
        (minMarginalsOne (branches.map Buffer.elements)))
      (branches.violations ++ [b.changeViolation, b.totalViolation .layer branches.lo.length]) b
      ((minMarginals branches : Work α σ _).run b).fate := by
  exact .lift_bind (denseBranches_eq branches) (.resolve_bind branches.lo.size_elements
    (.read_bind (.of_course (course_visit _ _ b) fun _ _ => rfl)))

theorem screens_perturb (inputs : Perturbed (Buffer α)) :
    let shares := (Layout.ofSizes .layer b.sizes).spans.zip (Layout.ofSizes .slot b.sizes).spans
    Screens (assigned shares fun i share => perturbOne inputs.elements i share.1 share.2)
      (inputs.violations ++ [b.changeViolation, b.totalViolation .layer inputs.costs.lo.length,
        b.totalViolation .slot inputs.change.lo.length]) b
      ((perturb inputs : Work α σ _).run b).fate := by
  refine .congr (fun left => ?_) (.lift_bind (densePerturbed_eq inputs) (.resolve_bind
    inputs.costs.lo.size_elements (.resolve_bind inputs.change.lo.size_elements (.read_bind
      (.of_course (course_visit _ _ b) fun _ _ => rfl)))))
  exact screened_twice _ _ _ _

theorem screens_lowerBounds (branches : Branches (Buffer α)) :
    let shares := (Layout.ofSizes .layer b.sizes).spans.zip (Layout.ofSizes .bdd b.sizes).spans
    Screens (assigned shares fun i share =>
        lowerBoundsOne (branches.map Buffer.elements) i share.1 share.2)
      (branches.violations ++ [b.changeViolation, b.totalViolation .layer branches.lo.length]) b
      ((lowerBounds branches : Work α σ _).run b).fate := by
  refine .congr (fun left => ?_) (.lift_bind (denseBranches_eq branches) (.resolve_bind
    branches.lo.size_elements (.read_bind (.resolve_bind rfl (.of_course (course_visit _ _ b)
      fun _ _ => rfl)))))
  rw [totalViolation_total, screened_twice, screened_none]

theorem screens_solution (branches : Branches (Buffer α)) :
    Screens (assigned (Layout.ofSizes .layer b.sizes).spans
        (solutionOne (branches.map Buffer.elements)))
      (branches.violations ++ [b.changeViolation, b.totalViolation .layer branches.lo.length]) b
      ((solution branches : Work α σ _).run b).fate := by
  exact .lift_bind (denseBranches_eq branches) (.resolve_bind branches.lo.size_elements
    (.of_course (course_visit _ _ b) fun _ _ => rfl))

end Operation

theorem Costs.sized_of_requireAligned {costs : Costs (Array α)}
    (aligned : costs.requireAligned = .ok ()) : costs.Sized costs.lo.size := by
  obtain ⟨_, high, low⟩ := bind_eq_ok_iff.mp aligned
  exact ⟨⟨rfl, Operation.size_of_requireSize high⟩, Operation.size_of_requireSize low⟩

namespace Operation

section Accepted

variable [Scalar α]

theorem sized_of_denseBranches {branches : Branches (Buffer α)} {values : Branches (Array α)}
    (accepted : denseBranches branches = .ok values) : values.Sized values.lo.size := by
  obtain ⟨_, -, accepted⟩ := bind_eq_ok_iff.mp accepted
  obtain ⟨_, high, same⟩ := bind_eq_ok_iff.mp accepted
  cases same
  exact ⟨rfl, size_of_requireSize high⟩

theorem sized_of_densePerturbed {inputs : Perturbed (Buffer α)} {values : Perturbed (Array α)}
    (accepted : densePerturbed inputs = .ok values) :
    values.costs.Sized values.costs.lo.size ∧ values.change.Sized values.change.lo.size := by
  obtain ⟨_, -, accepted⟩ := bind_eq_ok_iff.mp accepted
  obtain ⟨_, -, accepted⟩ := bind_eq_ok_iff.mp accepted
  obtain ⟨_, high, accepted⟩ := bind_eq_ok_iff.mp accepted
  obtain ⟨_, change, same⟩ := bind_eq_ok_iff.mp accepted
  cases same
  exact ⟨⟨rfl, size_of_requireSize high⟩, ⟨rfl, size_of_requireSize change⟩⟩

variable [Zero α] [Engine α σ] {b : Batch σ}

theorem sized_of_redistribute {costs : Costs (Buffer α)} {answer : Costs (Array α)}
    {record : Saved (Costs (Array α))}
    (ok : ((redistribute costs : Work α σ _).run b).result = .ok (answer, record)) :
    record.inputs.Sized record.inputs.lo.size := by
  obtain ⟨values, -, ok⟩ := result_lift_bind_eq_ok_iff.mp ok
  obtain ⟨_, aligned, ok⟩ := result_lift_bind_eq_ok_iff.mp ok
  obtain ⟨_, -, ok⟩ := result_bind_eq_ok_iff.mp ok
  obtain ⟨_, -, ok⟩ := result_bind_eq_ok_iff.mp ok
  obtain ⟨_, -, same⟩ := result_bind_eq_ok_iff.mp ok
  cases same
  exact Costs.sized_of_requireAligned aligned

theorem sized_of_minMarginals {branches : Branches (Buffer α)} {answer : Array α}
    {record : Saved (Branches (Array α))}
    (ok : ((minMarginals branches : Work α σ _).run b).result = .ok (answer, record)) :
    record.inputs.Sized record.inputs.lo.size := by
  obtain ⟨values, dense, ok⟩ := result_lift_bind_eq_ok_iff.mp ok
  obtain ⟨_, -, ok⟩ := result_bind_eq_ok_iff.mp ok
  obtain ⟨_, -, ok⟩ := result_bind_eq_ok_iff.mp ok
  obtain ⟨_, -, same⟩ := result_bind_eq_ok_iff.mp ok
  cases same
  exact sized_of_denseBranches dense

theorem sized_of_lowerBounds {branches : Branches (Buffer α)} {answer : Array α}
    {record : Saved (Branches (Array α))}
    (ok : ((lowerBounds branches : Work α σ _).run b).result = .ok (answer, record)) :
    record.inputs.Sized record.inputs.lo.size := by
  obtain ⟨values, dense, ok⟩ := result_lift_bind_eq_ok_iff.mp ok
  obtain ⟨_, -, ok⟩ := result_bind_eq_ok_iff.mp ok
  obtain ⟨_, -, ok⟩ := result_bind_eq_ok_iff.mp ok
  obtain ⟨_, -, ok⟩ := result_bind_eq_ok_iff.mp ok
  obtain ⟨_, -, same⟩ := result_bind_eq_ok_iff.mp ok
  cases same
  exact sized_of_denseBranches dense

theorem sized_of_perturb {inputs : Perturbed (Buffer α)} {answer : Branches (Array α)}
    {record : Saved (Perturbed (Array α))}
    (ok : ((perturb inputs : Work α σ _).run b).result = .ok (answer, record)) :
    record.inputs.costs.Sized record.inputs.costs.lo.size ∧
      record.inputs.change.Sized record.inputs.change.lo.size := by
  obtain ⟨values, dense, ok⟩ := result_lift_bind_eq_ok_iff.mp ok
  obtain ⟨_, -, ok⟩ := result_bind_eq_ok_iff.mp ok
  obtain ⟨_, -, ok⟩ := result_bind_eq_ok_iff.mp ok
  obtain ⟨_, -, ok⟩ := result_bind_eq_ok_iff.mp ok
  obtain ⟨_, -, same⟩ := result_bind_eq_ok_iff.mp ok
  cases same
  exact sized_of_densePerturbed dense

end Accepted

/-- What screening for these conditions decides: whether inputs are refused, or fit the batch. -/
structure Decides [Engine α σ] (violations : List (Option (Error α))) (b : Batch σ)
    (fits : Prop) : Prop where
  refuses : Refusing (report violations)
  accepts : report violations = .ok () → b.Stable ∧ fits

section Decides

variable [Engine α σ] {b : Batch σ} {violations : List (Option (Error α))} {fits : Prop}
  {kind : Segmentation} {length : Nat}

theorem Decides.of_checks {check : Except (Error α) γ} {values : γ}
    (checks : check = report violations >>= fun _ => .ok values) (refusing : Refusing check)
    (sized : check = .ok values → length = Sizes.total kind b.sizes → fits) :
    Decides (violations ++ [b.changeViolation, b.totalViolation kind length]) b fits := by
  refine ⟨?_, fun accepted => ?_⟩
  · rw [report_append, report_cons_cons, ← ensureStable_eq, ← require_eq]
    refine .bind (fun e violated => ?_) fun _ =>
      .bind b.refusing_ensureStable fun _ => refusing_require _ _
    rw [violated] at checks
    exact refusing e checks
  · rw [report_append] at accepted
    obtain ⟨_, dense, fitting⟩ := bind_eq_ok_iff.mp accepted
    rw [report_eq_ok_iff, List.forall_mem_cons, List.forall_mem_singleton] at fitting
    rw [dense] at checks
    exact ⟨b.changeViolation_eq_none_iff.mp fitting.1,
      sized checks (b.totalViolation_eq_none_iff.mp fitting.2)⟩

theorem Decides.append_total (decides : Decides violations b fits) (kind : Segmentation)
    (length : Nat) :
    Decides (violations ++ [b.totalViolation kind length]) b
      (fits ∧ length = Sizes.total kind b.sizes) := by
  refine ⟨?_, fun accepted => ?_⟩
  · rw [report_append, ← require_eq]
    exact .bind decides.refuses fun _ => refusing_require _ _
  · rw [report_append] at accepted
    obtain ⟨_, fitting, covered⟩ := bind_eq_ok_iff.mp accepted
    rw [report_eq_ok_iff, List.forall_mem_singleton] at covered
    obtain ⟨stable, fits⟩ := decides.accepts fitting
    exact ⟨stable, fits, b.totalViolation_eq_none_iff.mp covered⟩

variable [Scalar α] (b)

theorem decides_inputs (inputs : Inputs α (Buffer α)) :
    Decides (inputs.violations ++
        [b.changeViolation, b.totalViolation .layer inputs.costs.lo.length]) b
      ((inputs.map Buffer.elements).Sized (Sizes.total .layer b.sizes)) := by
  refine .of_checks (denseInputs_eq inputs) (refusing_denseInputs inputs) fun dense covered => ?_
  rw [← covered, ← inputs.costs.lo.size_elements]
  exact sized_of_denseInputs dense

theorem decides_costs (costs : Costs (Buffer α)) :
    Decides (costs.violations ++
        [b.changeViolation, b.totalViolation .layer costs.lo.length]) b
      ((costs.map Buffer.elements).Sized (Sizes.total .layer b.sizes)) := by
  refine .of_checks (Costs.dense_aligned_eq costs) (.bind costs.refusing_dense fun values =>
    .bind values.refusing_requireAligned fun _ => .ok _) fun dense covered => ?_
  obtain ⟨_, -, dense⟩ := bind_eq_ok_iff.mp dense
  obtain ⟨_, aligned, same⟩ := bind_eq_ok_iff.mp dense
  cases same
  rw [← covered, ← costs.lo.size_elements]
  exact Costs.sized_of_requireAligned aligned

theorem decides_branches (branches : Branches (Buffer α)) :
    Decides (branches.violations ++
        [b.changeViolation, b.totalViolation .layer branches.lo.length]) b
      ((branches.map Buffer.elements).Sized (Sizes.total .layer b.sizes)) := by
  refine .of_checks (denseBranches_eq branches) (refusing_denseBranches branches)
    fun dense covered => ?_
  rw [← covered, ← branches.lo.size_elements]
  exact sized_of_denseBranches dense

theorem decides_perturbed (inputs : Perturbed (Buffer α)) :
    Decides (inputs.violations ++
        [b.changeViolation, b.totalViolation .layer inputs.costs.lo.length,
          b.totalViolation .slot inputs.change.lo.length]) b
      (inputs.elements.costs.Sized (Sizes.total .layer b.sizes) ∧
        inputs.elements.change.Sized (Sizes.total .slot b.sizes)) := by
  have fits : Decides (inputs.violations ++
        [b.changeViolation, b.totalViolation .layer inputs.costs.lo.length]) b
      (inputs.elements.costs.Sized (Sizes.total .layer b.sizes) ∧
        inputs.elements.change.Sized inputs.elements.change.lo.size) := by
    refine .of_checks (densePerturbed_eq inputs) (refusing_densePerturbed inputs)
      fun dense covered => ?_
    rw [← covered, ← inputs.costs.lo.size_elements]
    exact sized_of_densePerturbed dense
  obtain ⟨refuses, accepts⟩ := fits.append_total .slot inputs.change.lo.length
  refine ⟨refuses, fun accepted => ?_⟩
  obtain ⟨stable, ⟨costs, change⟩, covered⟩ := accepts accepted
  rw [← covered, ← inputs.change.lo.size_elements]
  exact ⟨stable, costs, change⟩

end Decides

/-- The inputs are refused. -/
def Refused (result : Except (Error α) β) : Prop := ∃ e, result = .error e ∧ e.Refuses

theorem refused_map_iff {f : β → γ} {result : Except (Error α) β} :
    Refused (result.map f) ↔ Refused result :=
  exists_congr fun _ => and_congr_left fun _ => map_eq_error_iff

theorem refused_or_lift_bind {check : Except (Error α) γ} {next : γ → Work α σ β} {b : Batch σ}
    {accepted : Prop} (refusing : Refusing check)
    (rest : ∀ value, check = .ok value → Refused ((next value).run b).result ∨ accepted) :
    Refused ((lift check >>= next).run b).result ∨ accepted := by
  cases checked : check with
  | error e => exact .inl ⟨e, rfl, refusing e checked⟩
  | ok value => exact rest value checked

section Backward

variable [Scalar α] [Zero α] [Engine α σ] (b : Batch σ) (gradients : OutputGradients α)

omit [Engine α σ] in
theorem sized_of_accepted {gradients : OutputGradients α} {length : Nat}
    {outer : Branches (Array α)} (accepted : incomingBranches gradients length = .ok outer) :
    (gradients.elements.branches length).Sized length := by
  rw [← elements_of_incomingBranches accepted]
  exact sized_of_incomingBranches accepted

omit [Engine α σ] in
theorem size_of_accepted {name : String} {gradient : Option (Buffer α)} {length : Nat}
    {outer : Array α} (accepted : incoming name gradient length = .ok outer) :
    (DenseGradients.orZeros (gradient.map Buffer.elements) length).size = length := by
  rw [← elements_of_incoming accepted]
  exact size_of_incoming accepted

theorem accepted_redistributeBackward (record : Saved (Costs (Array α))) :
    let n := record.inputs.lo.size
    Refused ((redistributeBackward record gradients : Work α σ _).run b).result ∨
      (b.sizes = record.sizes ∧ b.Stable) ∧ n = Sizes.total .layer record.sizes ∧
        (gradients.elements.branches n).Sized n := by
  refine refused_or_lift_bind (b.refusing_ensureMatches _) fun _ matched => ?_
  refine refused_or_lift_bind (refusing_incomingBranches gradients _) fun outer accepted => ?_
  refine refused_or_lift_bind (refusing_require _ _) fun _ covers => .inr ?_
  exact ⟨ensureMatches_eq_ok_iff.mp matched, Layout.eq_total_of_require covers,
    sized_of_accepted accepted⟩

theorem accepted_minMarginalsBackward (record : Saved (Branches (Array α))) :
    let n := record.inputs.lo.size
    Refused ((minMarginalsBackward record gradients : Work α σ _).run b).result ∨
      (b.sizes = record.sizes ∧ b.Stable) ∧ n = Sizes.total .layer record.sizes ∧
        (DenseGradients.orZeros gradients.elements.values n).size = n := by
  refine refused_or_lift_bind (b.refusing_ensureMatches _) fun _ matched => ?_
  refine refused_or_lift_bind (refusing_incoming _ gradients.values _) fun outer accepted => ?_
  refine refused_or_lift_bind (refusing_require _ _) fun _ covers => .inr ?_
  exact ⟨ensureMatches_eq_ok_iff.mp matched, Layout.eq_total_of_require covers,
    size_of_accepted accepted⟩

theorem accepted_perturbBackward (record : Saved (Perturbed (Array α))) :
    let n := record.inputs.costs.lo.size
    Refused ((perturbBackward record gradients : Work α σ _).run b).result ∨
      (b.sizes = record.sizes ∧ b.Stable) ∧ n = Sizes.total .layer record.sizes ∧
        record.inputs.change.lo.size = Sizes.total .slot record.sizes ∧
        (gradients.elements.branches n).Sized n := by
  refine refused_or_lift_bind (b.refusing_ensureMatches _) fun _ matched => ?_
  refine refused_or_lift_bind (refusing_incomingBranches gradients _) fun outer accepted => ?_
  refine refused_or_lift_bind (refusing_require _ _) fun _ covers => ?_
  refine refused_or_lift_bind (refusing_require _ _) fun _ change => .inr ?_
  exact ⟨ensureMatches_eq_ok_iff.mp matched, Layout.eq_total_of_require covers,
    Layout.eq_total_of_require change, sized_of_accepted accepted⟩

theorem accepted_lowerBoundsBackward (record : Saved (Branches (Array α))) :
    let bdds := (Layout.ofSizes .bdd record.sizes).total
    Refused ((lowerBoundsBackward record gradients : Work α σ _).run b).result ∨
      (b.sizes = record.sizes ∧ b.Stable) ∧
        record.inputs.lo.size = Sizes.total .layer record.sizes ∧
        (DenseGradients.orZeros gradients.elements.values bdds).size = bdds := by
  refine refused_or_lift_bind (b.refusing_ensureMatches _) fun _ matched => ?_
  refine refused_or_lift_bind (refusing_require _ _) fun _ covers => ?_
  refine refused_or_lift_bind (refusing_incoming _ _ _) fun outer accepted => .inr ?_
  refine ⟨ensureMatches_eq_ok_iff.mp matched, Layout.eq_total_of_require covers, ?_⟩
  rw [OutputGradients.elements, ← elements_of_incoming_packed accepted]
  exact size_of_incoming accepted

theorem accepted_ascendBackward (record : AscentRecord α) :
    let n := record.inputs.costs.lo.size
    Refused ((ascendBackward record gradients : Work α σ _).run b).result ∨
      (b.sizes = record.sizes ∧ b.Stable) ∧ n = Sizes.total .layer record.sizes ∧
        (gradients.elements.costs n).Sized n := by
  refine refused_or_lift_bind (b.refusing_ensureMatches _) fun _ matched => ?_
  refine refused_or_lift_bind (refusing_incomingBranches gradients _) fun branches accepted => ?_
  refine refused_or_lift_bind (refusing_incoming _ gradients.deferred _)
    fun deferred accepted' => ?_
  have outer : (gradients.elements.costs record.inputs.costs.lo.size).Sized
      record.inputs.costs.lo.size :=
    ⟨sized_of_accepted accepted, size_of_accepted accepted'⟩
  dsimp only
  split
  · exact refused_or_lift_bind (refusing_require _ _) fun _ covers =>
      .inr ⟨ensureMatches_eq_ok_iff.mp matched, Layout.eq_total_of_require covers, outer⟩
  · exact refused_or_lift_bind (refusing_require _ _) fun _ covers =>
      .inr ⟨ensureMatches_eq_ok_iff.mp matched, Layout.eq_total_of_require covers, outer⟩

end Backward

end Operation

end DualAscent
