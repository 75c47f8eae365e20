import DualAscent.Proofs.Operation.Parts
import DualAscent.Proofs.Operation.Share

/-!
# Dual ascents that nothing cuts short

If no solver has a limit and the rule is flat, a dual ascent answers if every solver is ready for
it.  It arrives at the costs that the diagrams and the inputs determine, whatever the solvers did
before.
-/

namespace DualAscent

open Procedure Batch Operation

variable {α : Type}

namespace Diagrams

/-- The layers of the `i`-th diagrams in a flat array. -/
def span (all : List Diagrams) (i : Nat) (d : Diagrams) : Span :=
  place (all.map sizes) i d.sizes .layer

theorem length_span (all : List Diagrams) (i : Nat) (d : Diagrams) :
    (span all i d).length = d.layers :=
  length_place _ i d.sizes .layer

theorem getElem?_map_sizes {all : List Diagrams} {i : Nat} {d : Diagrams}
    (found : all[i]? = some d) : (all.map sizes)[i]? = some d.sizes := by
  rw [List.getElem?_map, found]
  rfl

/-- The same costs in flat arrays, one after the other. -/
def flatCosts (all : List Diagrams) (costs : Nat → (d : Diagrams) → Costs (Vector α d.layers)) :
    Costs (Array α) :=
  joinCosts (all.mapIdx fun i d => (costs i d).map Vector.toArray)

theorem flatCosts_congr {all : List Diagrams}
    {costs costs' : Nat → (d : Diagrams) → Costs (Vector α d.layers)}
    (same : ∀ i d, all[i]? = some d → costs i d = costs' i d) :
    flatCosts all costs = flatCosts all costs' := by
  refine congrArg joinCosts (List.ext_getElem? fun i => ?_)
  rw [List.getElem?_mapIdx, List.getElem?_mapIdx]
  cases found : all[i]? with
  | none => rfl
  | some d => exact congrArg (fun costs => some (costs.map Vector.toArray)) (same i d found)

section FlatCosts

variable (all : List Diagrams) (costs : Nat → (d : Diagrams) → Costs (Vector α d.layers))

theorem filled_mapIdx :
    List.Forall₂ (fun size part => part.Sized (size.segment .layer)) (all.map sizes)
      (all.mapIdx fun i d => (costs i d).map Vector.toArray) := by
  refine List.forall₂_iff_get.mpr ⟨by simp, fun i inside _ => ?_⟩
  simp only [List.get_eq_getElem, List.getElem_map, List.getElem_mapIdx]
  exact Costs.sized_toArray _

theorem sized_flatCosts : (flatCosts all costs).Sized (Sizes.total .layer (all.map sizes)) :=
  sized_joinCosts .layer (filled_mapIdx all costs)

theorem slice_flatCosts {i : Nat} {d : Diagrams} (found : all[i]? = some d) :
    (flatCosts all costs).map (span all i d).slice = (costs i d).map Vector.toArray := by
  refine map_slice_joinCosts .layer (filled_mapIdx all costs) (getElem?_map_sizes found) ?_
  rw [List.getElem?_mapIdx, found]
  rfl

end FlatCosts

variable [Zero α] [Add α] [Sub α] [Mul α]

/-- The costs that the ascent on the `i`-th diagrams arrives at. -/
def climbAt (all : List Diagrams) (inputs : Inputs α (Array α)) (steps : Nat) (i : Nat)
    (d : Diagrams) : Costs (Vector α d.layers) :=
  d.climb (inputs.map (span all i d).slice) steps

/-- The costs that the ascents on all diagrams arrive at. -/
def climbs (all : List Diagrams) (inputs : Inputs α (Array α)) (steps : Nat) : Costs (Array α) :=
  flatCosts all (climbAt all inputs steps)

theorem map_resume_climbs {all : List Diagrams} {i : Nat} {d : Diagrams} (found : all[i]? = some d)
    (inputs : Inputs α (Array α)) (steps : Nat) :
    (inputs.resume (climbs all inputs steps)).map (span all i d).slice =
      (inputs.map (span all i d).slice).resume
        ((climbAt all inputs steps i d).map Vector.toArray) :=
  congrArg (inputs.map (span all i d).slice).resume (slice_flatCosts all _ found)

theorem climbs_resume (all : List Diagrams) (inputs : Inputs α (Array α)) (j k : Nat) :
    climbs all (inputs.resume (climbs all inputs j)) k = climbs all inputs (j + k) := by
  refine flatCosts_congr fun i d found => ?_
  rw [climbAt, map_resume_climbs found, climbAt, climb_resume]
  rfl

end Diagrams

/-- The diagrams of the solvers in order. -/
def Batch.diagrams (b : Batch (Solver α)) : List Diagrams := b.members.map (·.solver.diagrams)

/-- No solver has a limit. -/
def Batch.Unlimited (b : Batch (Solver α)) : Prop :=
  ∀ member ∈ b.members, member.solver.limit = none

section Ascend

variable [Scalar α] [Zero α] [Add α] [Sub α] [Mul α] [Neg α]

theorem Batch.Stable.map_sizes {b : Batch (Solver α)} (stable : b.Stable) :
    b.diagrams.map Diagrams.sizes = b.sizes := by
  rw [diagrams, List.map_map]
  exact List.map_congr_left stable

/-- The inputs cover the solvers, and each of them is ready for an ascent. -/
structure Batch.Ready (b : Batch (Solver α)) (inputs : Inputs α (Array α))
    (settings : AscentSettings α) : Prop where
  stable : b.Stable
  sized : inputs.Sized (Sizes.total .layer b.sizes)
  each : ∀ member ∈ b.members, member.solver.Ready settings

theorem Batch.Stable.sized_flatCosts {b : Batch (Solver α)} (stable : b.Stable)
    (costs : Nat → (d : Diagrams) → Costs (Vector α d.layers)) :
    (Diagrams.flatCosts b.diagrams costs).Sized (Sizes.total .layer b.sizes) :=
  stable.map_sizes ▸ Diagrams.sized_flatCosts b.diagrams costs

namespace Operation

variable {b : Batch (Solver α)} {values : Inputs α (Array α)} {settings : AscentSettings α}

theorem ascend_of_dense {inputs : Inputs α (Buffer α)} (dense : denseInputs inputs = .ok values)
    {total : Nat} (sized : values.Sized total) :
    (ascend inputs settings : Work α (Solver α) _) = (Call.ascend values settings).perform := by
  rw [Call.perform, ascend, ascend, dense, denseInputs_ofArray sized]

/-- What a batch keeps of an ascent that nothing cuts short. -/
def ascentRecord (b : Batch (Solver α)) (values : Inputs α (Array α))
    (settings : AscentSettings α) : AscentRecord α where
  inputs := values
  sizes := b.sizes
  realized := List.replicate b.length settings.iterations
  tracked := settings.tracked
  caches := settings.caches

section Ready

variable (ready : b.Ready values settings) (unlimited : b.Unlimited)
  (flat : Scalar.lt 0 settings.slope = false)

include ready unlimited flat

theorem one_of_ready {i : Nat} {member : Member (Solver α)}
    (member_at : b.members[i]? = some member) :
    ∃ trend, (((Call.ascend values settings).one i (place b.sizes i member.frozen)).run
      member.solver).result = .ok (⟨settings.iterations, trend⟩,
        (Diagrams.climbAt b.diagrams values settings.iterations i member.solver.diagrams).map
          Vector.toArray) := by
  have inside := List.mem_of_getElem? member_at
  have unchanged : member.solver.diagrams.sizes = member.frozen := ready.stable member inside
  rw [Diagrams.climbAt, Diagrams.span, ready.stable.map_sizes, unchanged]
  obtain ⟨long, within⟩ := ready.stable.place_at member_at .layer
  obtain ⟨few, -⟩ := ready.stable.place_at member_at .bdd
  exact ascendOne_of_ready ready.sized long few within
    (ready.each member inside) (unlimited member inside) flat i

/-- All solvers are served, and what each of them answers is known. -/
theorem visit_of_ready :
    ∃ moved parts, (visit b.sizes fun i size => (Call.ascend values settings).one i
        (place b.sizes i size)).Yields b moved parts ∧ parts.length = b.members.length ∧
      ∀ (i : Nat) (member : Member (Solver α)), b.members[i]? = some member →
        ∃ trend, parts[i]? = some (⟨settings.iterations, trend⟩,
          (Diagrams.climbAt b.diagrams values settings.iterations i member.solver.diagrams).map
            Vector.toArray) := by
  have served : ∃ moved parts, Served (quiet fun i size => (Call.ascend values settings).one i
      (place b.sizes i size)) 0 () b.sizes b.members () moved parts := by
    refine served_of_each (by simp [sizes]) 0 fun i size member found member_at => ?_
    obtain rfl := Option.some.inj ((getElem?_sizes member_at).symm.trans found)
    obtain ⟨trend, answered⟩ := one_of_ready ready unlimited flat member_at
    rw [Nat.zero_add]
    exact ⟨_, answered⟩
  obtain ⟨moved, parts, served⟩ := served
  refine ⟨⟨moved⟩, parts, served.visit, served.length_eq, fun i member member_at => ?_⟩
  obtain ⟨part, found, answered, -⟩ := served.get (getElem?_sizes member_at) member_at
  obtain ⟨trend, answer⟩ := one_of_ready ready unlimited flat member_at
  rw [Nat.zero_add] at answered
  cases answer.symm.trans answered
  exact ⟨trend, found⟩

/-- A batch that is ready makes all steps that a flat rule asks for. -/
theorem ascend_of_ready {inputs : Inputs α (Buffer α)} (dense : denseInputs inputs = .ok values) :
    ∃ trend, ((ascend inputs settings).run b).result =
      .ok (⟨Diagrams.climbs b.diagrams values settings.iterations,
        List.replicate b.length settings.iterations, trend⟩, ascentRecord b values settings) := by
  obtain ⟨moved, parts, visited, length_eq, part_at⟩ := visit_of_ready ready unlimited flat
  have realized : parts.map (·.1.iterations) = List.replicate b.length settings.iterations := by
    refine List.eq_replicate_iff.mpr ⟨(List.length_map _).trans length_eq, fun run inside => ?_⟩
    obtain ⟨part, part_in, rfl⟩ := List.mem_map.mp inside
    obtain ⟨i, within, rfl⟩ := List.mem_iff_getElem.mp part_in
    obtain ⟨trend, found⟩ := part_at i _ (List.getElem?_eq_getElem (length_eq ▸ within))
    rw [Option.some.inj ((List.getElem?_eq_getElem within).symm.trans found)]
  have costs : parts.map (·.2) = b.diagrams.mapIdx fun i d =>
      (Diagrams.climbAt b.diagrams values settings.iterations i d).map Vector.toArray := by
    refine eq_mapIdx (by simp [diagrams, length_eq]) fun i d found => ?_
    rw [diagrams, List.getElem?_map] at found
    obtain ⟨member, member_at, rfl⟩ := Option.map_eq_some_iff.mp found
    obtain ⟨trend, part_found⟩ := part_at i member member_at
    rw [List.getElem?_map, part_found]
    rfl
  have answered : ((ascend inputs settings).run b).result =
      .ok ((Call.ascend values settings).answer b.sizes parts) := by
    have ended := (Call.ending_ascend settings ready.sized ready.stable).trans
      (visited.ending_bind fun parts => lift ((Call.ascend values settings).finish b.sizes parts))
    rw [ascend_of_dense dense ready.sized, ← toOption_eq_some_iff]
    exact congrArg Prod.snd ended
  simp only [Call.answer, realized, costs] at answered
  exact ⟨_, answered⟩

end Ready

/-- A batch that answers was ready. -/
theorem ready_of_ascend {inputs : Inputs α (Buffer α)} (unlimited : b.Unlimited)
    {value : Ascended α × AscentRecord α}
    (ok : ((ascend inputs settings).run b).result = .ok value) :
    ∃ values, denseInputs inputs = .ok values ∧ b.Ready values settings := by
  obtain ⟨values, dense, rest⟩ := result_lift_bind_eq_ok_iff.mp ok
  obtain ⟨_, resolved, -⟩ := result_bind_eq_ok_iff.mp rest
  have sized := sized_of_denseInputs dense
  rcases resolve_cases b .layer values.costs.lo.size with ⟨e, refused⟩ | ⟨stable, covered⟩
  · rw [refused] at resolved
    cases resolved
  rw [covered] at sized
  refine ⟨values, dense, stable, sized, fun member inside => ?_⟩
  rw [ascend_of_dense dense sized] at ok
  have visited := ((ending_eq_iff.mp (Call.ending_ascend settings sized stable)).2 value).mp ok
  obtain ⟨parts, visited, -⟩ := result_bind_eq_ok_iff.mp visited
  obtain ⟨moved, served⟩ := served_of_visit (by simp [sizes]) visited
  obtain ⟨i, member_at⟩ := List.mem_iff_getElem?.mp inside
  obtain ⟨part, -, answered, -⟩ := served.get (getElem?_sizes member_at) member_at
  rw [Nat.zero_add] at answered
  obtain ⟨long, within⟩ := stable.place_at member_at .layer
  obtain ⟨few, -⟩ := stable.place_at member_at .bdd
  exact ready_of_ascendOne sized long few within
    (unlimited member inside) answered

end Operation

end Ascend

end DualAscent
