import DualAscent.Proofs.Operation.Elements
import DualAscent.Proofs.Operation.Parts
import DualAscent.Proofs.Operation.Standing
import DualAscent.Proofs.Solver.Contagion

/-!
# Backward passes hide nothing

A backward pass checks what it returns, and nothing that it takes in.  That is enough: an entry of
an incoming gradient that is not finite either reaches what is returned, or meets on its way only
sums and differences that cannot be finite either.
-/

namespace DualAscent

open Procedure Batch

variable {α β : Type} [Scalar α]

theorem Costs.finite_of_slices {sizes : List Sizes} {kind : Segmentation}
    {costs : Costs (Array α)} (sized : costs.Sized (Sizes.total kind sizes))
    (each : ∀ i size, sizes[i]? = some size →
      (costs.map (place sizes i size kind).slice).Finite) : costs.Finite where
  lo := DualAscent.finite_of_slices sized.lo fun i size found => (each i size found).lo
  hi := DualAscent.finite_of_slices sized.hi fun i size found => (each i size found).hi
  deferred := DualAscent.finite_of_slices sized.deferred fun i size found =>
    (each i size found).deferred

namespace Operation

theorem finite_of_joinBranches {parts : List (Branches (Array α))}
    (finite : (joinBranches parts).Finite) {part : Branches (Array α)} (inside : part ∈ parts) :
    part.Finite where
  lo := finiteEntries_joined_iff.mp finite.lo _ (List.mem_map_of_mem inside)
  hi := finiteEntries_joined_iff.mp finite.hi _ (List.mem_map_of_mem inside)

theorem finite_of_joinCosts {parts : List (Costs (Array α))} (finite : (joinCosts parts).Finite)
    {part : Costs (Array α)} (inside : part ∈ parts) : part.Finite where
  lo := finiteEntries_joined_iff.mp finite.lo _ (List.mem_map_of_mem inside)
  hi := finiteEntries_joined_iff.mp finite.hi _ (List.mem_map_of_mem inside)
  deferred := finiteEntries_joined_iff.mp finite.deferred _ (List.mem_map_of_mem inside)

variable [Zero α] [Add α] [Sub α] [Contagious α]

theorem finite_of_incoming {name : String} {gradient : Option (Buffer α)} {length : Nat}
    {values : Array α} (accepted : incoming name gradient length = .ok values)
    (finite : FiniteEntries values) {given : Buffer α} (inside : gradient = some given) :
    given.nonFinite = 0 := by
  subst inside
  rw [elements_of_incoming accepted] at finite
  exact Buffer.nonFinite_eq_zero finite

theorem finite_of_incomingBranches {gradients : OutputGradients α} {length : Nat}
    {branches : Branches (Array α)} (accepted : incomingBranches gradients length = .ok branches)
    (finite : branches.Finite) :
    (∀ given, gradients.lo = some given → given.nonFinite = 0) ∧
      ∀ given, gradients.hi = some given → given.nonFinite = 0 := by
  obtain ⟨lo, low, rest⟩ := bind_eq_ok_iff.mp accepted
  obtain ⟨hi, high, same⟩ := bind_eq_ok_iff.mp rest
  cases same
  exact ⟨fun _ => finite_of_incoming low finite.lo, fun _ => finite_of_incoming high finite.hi⟩

/-- Packing makes no difference. -/
theorem finite_of_incoming_packed {name : String} {gradient : Option (Buffer α)} {length : Nat}
    {values : Array α}
    (accepted : incoming name
      (gradient.map fun given => if given.isContiguous then given else given.packed) length =
        .ok values)
    (finite : FiniteEntries values) {given : Buffer α} (inside : gradient = some given) :
    given.nonFinite = 0 := by
  subst inside
  rw [elements_of_incoming_packed accepted] at finite
  exact Buffer.nonFinite_eq_zero finite

variable [Mul α] [Neg α] {b : Batch (Solver α)} {gradients : OutputGradients α}

omit [Scalar α] [Zero α] [Add α] [Sub α] [Contagious α] [Mul α] [Neg α] in
/-- Every solver in a visit that succeeds has done its part. -/
theorem exists_part {Λ ε : Type} {work : Nat → Sizes → Procedure Λ (Solver α) ε β}
    {parts : List β} (ok : ((visit b.sizes work).run b).result = .ok parts) {i : Nat} {size : Sizes}
    (found : b.sizes[i]? = some size) :
    ∃ s, ∃ part ∈ parts, ((work i size).run s).result = .ok part := by
  obtain ⟨moved, served⟩ := served_of_visit (by simp [sizes]) ok
  have within : i < b.members.length := by
    have below := (List.getElem?_eq_some_iff.mp found).1
    rwa [sizes, List.length_map] at below
  obtain ⟨part, part_at, answered, -⟩ := served.get found (List.getElem?_eq_getElem within)
  rw [Nat.zero_add] at answered
  exact ⟨_, part, List.mem_of_getElem? part_at, answered⟩

theorem finite_of_redistributeBackward {record : Saved (Costs (Array α))}
    {gradient : Costs (Array α)}
    (ok : ((redistributeBackward record gradients).run b).result = .ok gradient) :
    gradient.Finite ∧ (∀ given, gradients.lo = some given → given.nonFinite = 0) ∧
      ∀ given, gradients.hi = some given → given.nonFinite = 0 := by
  rw [redistributeBackward, run_read_bind] at ok
  obtain ⟨_, -, ok⟩ := result_lift_bind_eq_ok_iff.mp ok
  obtain ⟨outer, accepted, ok⟩ := result_lift_bind_eq_ok_iff.mp ok
  obtain ⟨_, -, ok⟩ := result_lift_bind_eq_ok_iff.mp ok
  obtain ⟨parts, -, ok⟩ := result_bind_eq_ok_iff.mp ok
  obtain ⟨_, passed, same⟩ := result_lift_bind_eq_ok_iff.mp ok
  cases same
  have finite := requireFiniteArrays_eq_ok_iff.mp passed
  simp only [List.forall_mem_cons] at finite
  obtain ⟨lo, hi, deferred, -⟩ := finite
  exact ⟨⟨⟨lo, hi⟩, deferred⟩, finite_of_incomingBranches accepted ⟨lo, hi⟩⟩

theorem finite_of_perturbBackward {record : Saved (Perturbed (Array α))}
    {gradient : Perturbed (Array α)}
    (ok : ((perturbBackward record gradients).run b).result = .ok gradient) :
    gradient.change.Finite ∧ gradient.costs.Finite ∧
      (∀ given, gradients.lo = some given → given.nonFinite = 0) ∧
      ∀ given, gradients.hi = some given → given.nonFinite = 0 := by
  rw [perturbBackward, run_read_bind] at ok
  obtain ⟨_, -, ok⟩ := result_lift_bind_eq_ok_iff.mp ok
  obtain ⟨outer, accepted, ok⟩ := result_lift_bind_eq_ok_iff.mp ok
  obtain ⟨_, -, ok⟩ := result_lift_bind_eq_ok_iff.mp ok
  obtain ⟨_, -, ok⟩ := result_lift_bind_eq_ok_iff.mp ok
  obtain ⟨parts, -, ok⟩ := result_bind_eq_ok_iff.mp ok
  obtain ⟨_, passed, same⟩ := result_lift_bind_eq_ok_iff.mp ok
  cases same
  have finite := requireFiniteArrays_eq_ok_iff.mp passed
  simp only [List.forall_mem_cons] at finite
  obtain ⟨lo_change, hi_change, lo, hi, -⟩ := finite
  exact ⟨⟨lo_change, hi_change⟩, ⟨lo, hi⟩, finite_of_incomingBranches accepted ⟨lo, hi⟩⟩

theorem finite_of_minMarginalsBackward {record : Saved (Branches (Array α))}
    {gradient : Branches (Array α)}
    (ok : ((minMarginalsBackward record gradients).run b).result = .ok gradient) :
    gradient.Finite ∧ ∀ given, gradients.values = some given → given.nonFinite = 0 := by
  rw [minMarginalsBackward, run_read_bind] at ok
  obtain ⟨_, matched, ok⟩ := result_lift_bind_eq_ok_iff.mp ok
  obtain ⟨outer, accepted, ok⟩ := result_lift_bind_eq_ok_iff.mp ok
  obtain ⟨_, covered, ok⟩ := result_lift_bind_eq_ok_iff.mp ok
  obtain ⟨parts, visited, ok⟩ := result_bind_eq_ok_iff.mp ok
  obtain ⟨_, passed, same⟩ := result_lift_bind_eq_ok_iff.mp ok
  cases same
  have finite := requireFiniteArrays_eq_ok_iff.mp passed
  simp only [List.forall_mem_cons] at finite
  obtain ⟨lo, hi, -⟩ := finite
  have finite : (joinBranches parts).Finite := ⟨lo, hi⟩
  refine ⟨finite, fun _ => finite_of_incoming accepted ?_⟩
  obtain ⟨sizes_eq, -⟩ := ensureMatches_eq_ok_iff.mp matched
  have sized : outer.size = Sizes.total .layer record.sizes :=
    (size_of_incoming accepted).trans (Layout.eq_total_of_require covered)
  rw [Layout.spans_ofSizes, visit_mapIdx, ← sizes_eq] at visited
  refine finite_of_slices sized fun i size found => ?_
  rw [← sizes_eq] at found ⊢
  obtain ⟨s, part, inside, answered⟩ := exists_part visited found
  obtain ⟨_, -, told⟩ := result_bind_eq_ok_iff.mp answered
  exact Solver.finite_of_minMarginalsBackward (result_attempt_eq_ok_iff.mp told)
    (finite_of_joinBranches finite inside)

theorem finite_of_lowerBoundsBackward {record : Saved (Branches (Array α))}
    {gradient : Branches (Array α)}
    (ok : ((lowerBoundsBackward record gradients).run b).result = .ok gradient) :
    gradient.Finite ∧ ∀ given, gradients.values = some given → given.nonFinite = 0 := by
  rw [lowerBoundsBackward, run_read_bind] at ok
  obtain ⟨_, matched, ok⟩ := result_lift_bind_eq_ok_iff.mp ok
  obtain ⟨_, -, ok⟩ := result_lift_bind_eq_ok_iff.mp ok
  obtain ⟨outer, accepted, ok⟩ := result_lift_bind_eq_ok_iff.mp ok
  obtain ⟨parts, visited, ok⟩ := result_bind_eq_ok_iff.mp ok
  obtain ⟨_, passed, same⟩ := result_lift_bind_eq_ok_iff.mp ok
  cases same
  have finite := requireFiniteArrays_eq_ok_iff.mp passed
  simp only [List.forall_mem_cons] at finite
  obtain ⟨lo, hi, -⟩ := finite
  have finite : (joinBranches parts).Finite := ⟨lo, hi⟩
  refine ⟨finite, fun _ => finite_of_incoming_packed accepted ?_⟩
  obtain ⟨sizes_eq, -⟩ := ensureMatches_eq_ok_iff.mp matched
  rw [Layout.spans_ofSizes, Layout.spans_ofSizes, zip_mapIdx, visit_mapIdx, ← sizes_eq] at visited
  have sized : outer.size = Sizes.total .bdd record.sizes :=
    (size_of_incoming accepted).trans (Layout.total_ofSizes .bdd record.sizes)
  refine finite_of_slices sized fun i size found => ?_
  rw [← sizes_eq] at found ⊢
  obtain ⟨s, part, inside, answered⟩ := exists_part visited found
  obtain ⟨_, -, told⟩ := result_bind_eq_ok_iff.mp answered
  exact Solver.finite_of_lowerBoundsBackward (result_attempt_eq_ok_iff.mp told)
    (finite_of_joinBranches finite inside)

theorem finite_of_descendOne {record : AscentRecord α} {outer : Costs (Array α)} {i : Nat}
    {layers : Span} {window : ReplayWindow} {carried next : α} {s : Solver α}
    {part : Inputs α (Array α)}
    (ok : ((descendOne record outer i layers window carried).run s).result = .ok (next, part))
    (finite : part.costs.Finite) : (outer.map layers.slice).Finite := by
  rw [descendOne, descendWith, run_log_bind] at ok
  obtain ⟨_, -, ok⟩ := result_bind_eq_ok_iff.mp ok
  obtain ⟨_, -, ok⟩ := result_bind_eq_ok_iff.mp ok
  obtain ⟨swept, replayed, ok⟩ := result_bind_eq_ok_iff.mp ok
  obtain ⟨_, -, same⟩ := result_bind_eq_ok_iff.mp ok
  cases same
  exact Solver.finite_of_iterateBackward (result_attempt_eq_ok_iff.mp replayed) finite

omit [Contagious α] in
/-- A traversal that succeeds has swept the gradients of every solver back. -/
theorem exists_swept {record : AscentRecord α} {outer : Costs (Array α)} {last : α}
    {parts : List (Inputs α (Array α))} (same : b.sizes = record.sizes)
    (complete : record.realized.length = record.sizes.length)
    (walked : ((visitCarrying 0 ((Layout.ofSizes .layer record.sizes).spans.zip
      (record.realized.map (ReplayWindow.ofRun · record.tracked)))
        (descendShare record outer)).run b).result = .ok (last, parts))
    {i : Nat} {size : Sizes} (found : record.sizes[i]? = some size) :
    ∃ window carried next, ∃ s : Solver α, ∃ part ∈ parts,
      ((descendOne record outer i (place record.sizes i size .layer) window carried).run s).result =
        .ok (next, part) := by
  have length_eq : b.members.length = record.sizes.length := by
    rw [← same, sizes, List.length_map]
  have within : i < record.sizes.length := (List.getElem?_eq_some_iff.mp found).1
  have recorded : i < record.realized.length := complete ▸ within
  rw [Layout.spans_ofSizes] at walked
  have served := served_of_walk (by simp [complete, length_eq]) walked
  obtain ⟨carried, -, -, each⟩ := served.exists_carried
  have share : ((record.sizes.mapIdx fun i size => place record.sizes i size .layer).zip
      (record.realized.map (ReplayWindow.ofRun · record.tracked)))[i]? =
        some (place record.sizes i size .layer,
          .ofRun record.realized[i] record.tracked) := by
    rw [List.getElem?_zip_eq_some, List.getElem?_mapIdx, found, List.getElem?_map,
      List.getElem?_eq_getElem recorded]
    exact ⟨rfl, rfl⟩
  obtain ⟨part, part_at, answered⟩ := each i _ _ share
    (List.getElem?_eq_getElem (length_eq ▸ within))
  rw [Nat.zero_add] at answered
  exact ⟨_, _, _, _, part, List.mem_of_getElem? part_at, answered⟩

theorem finite_of_ascendBackward {record : AscentRecord α} {gradient : Inputs α (Array α)}
    (complete : record.realized.length = record.sizes.length)
    (ok : ((ascendBackward record gradients).run b).result = .ok gradient) :
    (gradient.costs.Finite ∧ FiniteEntries gradient.weights ∧
        FiniteEntries gradient.damping.toArray) ∧
      (∀ given, gradients.lo = some given → given.nonFinite = 0) ∧
      (∀ given, gradients.hi = some given → given.nonFinite = 0) ∧
      ∀ given, gradients.deferred = some given → given.nonFinite = 0 := by
  obtain ⟨outer, last, parts, descended⟩ := descended_of_ok ok
  obtain ⟨_, passed, same⟩ := bind_eq_ok_iff.mp descended.passed
  cases same
  have finite := requireFiniteArrays_eq_ok_iff.mp passed
  simp only [List.forall_mem_cons] at finite
  obtain ⟨lo, hi, deferred, weights, damping, -⟩ := finite
  have finite : (joinCosts (parts.map (·.costs))).Finite := ⟨⟨lo, hi⟩, deferred⟩
  obtain ⟨sizes_eq, -⟩ := ensureMatches_eq_ok_iff.mp descended.matched
  have sized : outer.Sized (Sizes.total .layer record.sizes) := by
    rw [← Layout.total_ofSizes, Layout.total_of_require descended.covered]
    exact ⟨sized_of_incomingBranches descended.branches, size_of_incoming descended.deferred⟩
  have outer_finite : outer.Finite := by
    refine Costs.finite_of_slices sized fun i size found => ?_
    obtain ⟨_, _, _, _, part, inside, answered⟩ :=
      exists_swept sizes_eq complete descended.walked found
    exact finite_of_descendOne answered (finite_of_joinCosts finite (List.mem_map_of_mem inside))
  obtain ⟨low, high⟩ := finite_of_incomingBranches descended.branches outer_finite.toFinite
  exact ⟨⟨finite, weights, damping⟩, low, high,
    fun _ => finite_of_incoming descended.deferred outer_finite.deferred⟩

end Operation

end DualAscent
