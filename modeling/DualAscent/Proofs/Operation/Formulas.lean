import DualAscent.Proofs.Operation.Bounds
import DualAscent.Proofs.Solver.Room

/-!
# Requests that are formulas

Redistribution, min-marginal differences and perturbation apply one formula to the costs that a
solver has bound.  Their backward passes apply another one to the incoming gradient, which does not
read these costs.
-/

namespace DualAscent

open Procedure Batch

variable {α : Type}

namespace Solver

variable {s : Solver α}

theorem yields_distributeDelta [Scalar α] [Zero α] [Add α] [Sub α] [Mul α] [Neg α]
    (intact : s.intact = true) (healthy : s.failure ≠ some .distributeDelta) :
    (serve .distributeDelta).Yields s { s with costs := s.costs.distribute } () := by
  have run_eq : (serve .distributeDelta : Work α Unit).run s =
      ⟨[], { s with costs := s.costs.distribute }, .ok ()⟩ := by
    simp only [serve_distributeDelta, distribute, run_read_bind,
      checkFailure_eq_ok_iff.mpr healthy, run_lift_ok_bind, run_write, intact, if_true]
  exact .of_run run_eq

theorem yields_distributeBackward [Zero α] (outer : Branches (Vector α s.layers)) {space : Nat}
    (roomy : space = s.layers) :
    (distributeBackward (outer.map Vector.toArray) space).Yields s s outer.hi.toArray := by
  have run_eq : (distributeBackward (outer.map Vector.toArray) space).run s =
      ⟨[], s, .ok outer.hi.toArray⟩ := by
    simp only [distributeBackward_eq, run_read_bind, Branches.map, segment_toArray,
      room_eq_ok_iff.mpr roomy, run_lift_ok_bind, run_pure]
  exact .of_run run_eq

theorem yields_minMarginals [Zero α] [Add α] [Sub α] (intact : s.intact = true)
    (healthy : s.failure ≠ some .minMarginals) {space : Nat} (roomy : space = s.layers) :
    (minMarginals space).Yields s s s.costs.margins.toArray := by
  have run_eq : (minMarginals space).run s = ⟨[], s, .ok s.costs.margins.toArray⟩ := by
    simp only [minMarginals_eq, run_read_bind, checkFailure_eq_ok_iff.mpr healthy,
      room_eq_ok_iff.mpr roomy, checkIntact, intact, if_true, run_lift_ok_bind, run_pure]
  exact .of_run run_eq

theorem yields_minMarginalsBackward [Zero α] [Neg α] (outer : Vector α s.layers)
    {space : Nat} (roomy : space = s.layers) :
    (minMarginalsBackward outer.toArray ⟨space, space⟩).Yields s s
      (Branches.map Vector.toArray ⟨outer.map (-·), outer⟩) := by
  have run_eq : (minMarginalsBackward outer.toArray ⟨space, space⟩).run s =
      ⟨[], s, .ok (Branches.map Vector.toArray ⟨outer.map (-·), outer⟩)⟩ := by
    simp only [minMarginalsBackward_eq, run_read_bind, segment_toArray, room_eq_ok_iff.mpr roomy,
      run_lift_ok_bind, run_pure, Branches.map]
  exact .of_run run_eq

theorem yields_perturb [Scalar α] [Zero α] [Add α] [Sub α] [Mul α] [Neg α]
    (healthy : s.failure ≠ some .perturb) (change : Branches (Vector α s.slots)) :
    (serve (.perturb (change.map Vector.toArray))).Yields s
      { s with costs := s.costs.perturb s.diagrams.slotOf change } () := by
  have run_eq : (serve (.perturb (change.map Vector.toArray))).run s =
      ⟨[], { s with costs := s.costs.perturb s.diagrams.slotOf change }, .ok ()⟩ := by
    simp only [serve_perturb, perturb, run_read_bind, checkFailure_eq_ok_iff.mpr healthy,
      Branches.map, segment_toArray, run_lift_ok_bind, run_write]
  exact .of_run run_eq

theorem yields_perturbBackward [Zero α] [Add α] (outer : Branches (Vector α s.layers))
    {space : Nat} (roomy : space = s.slots) :
    (perturbBackward (outer.map Vector.toArray) ⟨space, space⟩).Yields s s
      ((outer.map (sumBy s.diagrams.slotOf)).map Vector.toArray) := by
  have run_eq : (perturbBackward (outer.map Vector.toArray) ⟨space, space⟩).run s =
      ⟨[], s, .ok ((outer.map (sumBy s.diagrams.slotOf)).map Vector.toArray)⟩ := by
    simp only [perturbBackward_eq, run_read_bind, Branches.map, segment_toArray,
      room_eq_ok_iff.mpr roomy, run_lift_ok_bind, run_pure]
  exact .of_run run_eq

end Solver

variable [Zero α]

theorem Branches.Sized.map_fit {n : Nat} {branches : Branches (Array α)}
    (sized : branches.Sized n) : (branches.map (fit n)).map Vector.toArray = branches := by
  simp only [Branches.map, toArray_fit sized.lo, toArray_fit sized.hi]

namespace Operation

variable [Scalar α] [Add α] [Sub α] [Mul α] [Neg α] {s : Solver α} {layers slots : Span}
  {total : Nat} (intact : s.intact = true) (long : layers.length = s.layers)
  (inside : layers.stop ≤ total) (i : Nat)

section Redistribution

variable {costs : Costs (Array α)} (sized : costs.Sized total)

include intact long inside sized

theorem yields_bindSlices (context : Context α) :
    (attempt i context (.setCosts (costs.map layers.slice))).Yields s
      { s with costs := (costs.map layers.slice).map (fit s.layers) } () := by
  have share : (costs.map layers.slice).Sized s.layers := long ▸ sized.slice inside
  have binding : (attempt i context
      (.setCosts (((costs.map layers.slice).map (fit s.layers)).map Vector.toArray))).Yields s
        { s with costs := (costs.map layers.slice).map (fit s.layers) } () :=
    yields_attempt i context (Solver.yields_setCosts intact _)
  rwa [share.map_fit] at binding

theorem result_redistributeOne (healthy : s.failure ≠ some .distributeDelta) :
    ((redistributeOne costs i layers).run s).result =
      .ok (((costs.map layers.slice).map (fit s.layers)).distribute.map Vector.toArray) := by
  let bound : Solver α := { s with costs := (costs.map layers.slice).map (fit s.layers) }
  let moved : Solver α := { bound with costs := bound.costs.distribute }
  let context : Context α := .segments [(.layer, layers)]
  have binding := yields_bindSlices intact long inside i sized context
  have moving : (attempt i context .distributeDelta).Yields bound moved () :=
    yields_attempt i context (Solver.yields_distributeDelta (s := bound) intact healthy)
  have reading : (attempt i context (.costs (roomForCosts layers))).Yields moved moved
      (moved.costs.map Vector.toArray) :=
    yields_attempt i context (Solver.yields_readCosts (s := moved) intact long)
  exact ((Yields.log _ s).bind (binding.bind (moving.bind reading))).result

theorem result_redistributeOneBackward {outer : Branches (Array α)} (given : outer.Sized total) :
    ((redistributeOneBackward costs outer i layers).run s).result =
      .ok (layers.slice outer.hi) := by
  let bound : Solver α := { s with costs := (costs.map layers.slice).map (fit s.layers) }
  let context : Context α := .segments [(.layer, layers)]
  let share := (outer.map layers.slice).map (fit s.layers)
  have binding := yields_bindSlices intact long inside i sized context
  have asking : (attempt i context (.gradDistributeDelta (share.map Vector.toArray)
      layers.length)).Yields bound bound (share.map Vector.toArray).hi :=
    yields_attempt i context (Solver.yields_distributeBackward (s := bound) share long)
  have shared : share.map Vector.toArray = outer.map layers.slice :=
    Branches.Sized.map_fit (long ▸ given.slice inside)
  rw [shared] at asking
  exact (binding.bind asking).result

omit intact long inside sized in
theorem able_of_redistributeOne {part : Costs (Array α)}
    (ok : ((redistributeOne costs i layers).run s).result = .ok part) :
    s.intact = true ∧ s.failure ≠ some .distributeDelta := by
  rw [redistributeOne, redistributeWith, (Yields.log _ s).result_bind] at ok
  obtain ⟨intact, bound, kept, rest⟩ := exists_bound ok
  obtain ⟨_, asked, -⟩ := result_bind_eq_ok_iff.mp rest
  exact ⟨intact, kept ▸ Solver.healthy_of_serve rfl (result_attempt_eq_ok_iff.mp asked)⟩

end Redistribution

section MinMarginals

variable {branches : Branches (Array α)} (sized : branches.Sized total)

include intact long inside sized

theorem result_minMarginalsOne (healthy : s.failure ≠ some .minMarginals) :
    ((minMarginalsOne branches i layers).run s).result =
      .ok (s.diagrams.undeferred (branches.map layers.slice)).margins.toArray := by
  let bound : Solver α :=
    { s with costs := s.diagrams.undeferred (branches.map layers.slice) }
  let context : Context α := .segments [(.layer, layers)]
  have binding := yields_bindUndeferred sized long inside intact i context
  have asking : (attempt i context (.minMarginals layers.length)).Yields bound bound
      bound.costs.margins.toArray :=
    yields_attempt i context (Solver.yields_minMarginals (s := bound) intact healthy long)
  exact ((Yields.log _ s).bind (binding.bind asking)).result

theorem result_minMarginalsOneBackward {outer : Array α}
    (given : (layers.slice outer).size = s.layers) :
    ((minMarginalsOneBackward branches outer i layers).run s).result =
      .ok (Branches.map Vector.toArray
        ⟨(fit s.layers (layers.slice outer)).map (-·), fit s.layers (layers.slice outer)⟩) := by
  let bound : Solver α :=
    { s with costs := s.diagrams.undeferred (branches.map layers.slice) }
  let context : Context α := .segments [(.layer, layers)]
  let share := fit s.layers (layers.slice outer)
  have binding := yields_bindUndeferred sized long inside intact i context
  have asking : (attempt i context (.gradMinMarginals share.toArray
      ⟨layers.length, layers.length⟩)).Yields bound bound
        (Branches.map Vector.toArray ⟨share.map (-·), share⟩) :=
    yields_attempt i context (Solver.yields_minMarginalsBackward (s := bound) share long)
  have shared : share.toArray = layers.slice outer := toArray_fit given
  rw [shared] at asking
  exact (binding.bind asking).result

omit intact long inside sized in
theorem able_of_minMarginalsOne {part : Array α}
    (ok : ((minMarginalsOne branches i layers).run s).result = .ok part) :
    s.intact = true ∧ s.failure ≠ some .minMarginals := by
  rw [minMarginalsOne, consult, (Yields.log _ s).result_bind] at ok
  obtain ⟨intact, bound, kept, asked⟩ := exists_bound ok
  exact ⟨intact, kept ▸ Solver.healthy_of_serve rfl (result_attempt_eq_ok_iff.mp asked)⟩

end MinMarginals

section Perturbation

variable {inputs : Perturbed (Array α)} (sized : inputs.costs.Sized total)
  (wide : slots.length = s.slots)

include intact long inside sized wide

theorem result_perturbOne (healthy : s.failure ≠ some .perturb) {totalSlots : Nat}
    (within : slots.stop ≤ totalSlots) (given : inputs.change.Sized totalSlots) :
    ((perturbOne inputs i layers slots).run s).result =
      .ok (((s.diagrams.undeferred (inputs.costs.map layers.slice)).perturb s.diagrams.slotOf
        ((inputs.change.map slots.slice).map (fit s.slots))).toBranches.map Vector.toArray) := by
  let bound : Solver α :=
    { s with costs := s.diagrams.undeferred (inputs.costs.map layers.slice) }
  let share := (inputs.change.map slots.slice).map (fit s.slots)
  let moved : Solver α :=
    { bound with costs := bound.costs.perturb s.diagrams.slotOf share }
  let context : Context α := .segments [(.layer, layers), (.slot, slots)]
  have binding := yields_bindUndeferred sized long inside intact i context
  have moving : (attempt i context (.perturb (share.map Vector.toArray))).Yields bound moved () :=
    yields_attempt i context (Solver.yields_perturb (s := bound) healthy share)
  have shared : share.map Vector.toArray = inputs.change.map slots.slice :=
    Branches.Sized.map_fit (wide ▸ given.slice within)
  rw [shared] at moving
  have reading : (attempt i context (.costs (roomForCosts layers))).Yields moved moved
      (moved.costs.map Vector.toArray) :=
    yields_attempt i context (Solver.yields_readCosts (s := moved) intact long)
  have returning : (attempt i context (.costs (roomForCosts layers)) >>= fun costs =>
      pure costs.toBranches).Yields moved moved (moved.costs.toBranches.map Vector.toArray) :=
    reading.bind (.pure _ moved)
  exact ((Yields.log _ s).bind (binding.bind (moving.bind returning))).result

theorem result_perturbOneBackward {outer : Branches (Array α)} (given : outer.Sized total) :
    ((perturbOneBackward inputs outer i layers slots).run s).result =
      .ok ((((outer.map layers.slice).map (fit s.layers)).map (sumBy s.diagrams.slotOf)).map
        Vector.toArray) := by
  let bound : Solver α :=
    { s with costs := s.diagrams.undeferred (inputs.costs.map layers.slice) }
  let context : Context α := .segments [(.layer, layers), (.slot, slots)]
  let share := (outer.map layers.slice).map (fit s.layers)
  have binding := yields_bindUndeferred sized long inside intact i context
  have asking : (attempt i context (.gradPerturb (share.map Vector.toArray)
      ⟨slots.length, slots.length⟩)).Yields bound bound
        ((share.map (sumBy s.diagrams.slotOf)).map Vector.toArray) :=
    yields_attempt i context (Solver.yields_perturbBackward (s := bound) share wide)
  have shared : share.map Vector.toArray = outer.map layers.slice :=
    Branches.Sized.map_fit (long ▸ given.slice inside)
  rw [shared] at asking
  exact (binding.bind asking).result

omit intact long inside sized wide in
theorem able_of_perturbOne {part : Branches (Array α)}
    (ok : ((perturbOne inputs i layers slots).run s).result = .ok part) :
    s.intact = true ∧ s.failure ≠ some .perturb := by
  rw [perturbOne, perturbWith, (Yields.log _ s).result_bind] at ok
  obtain ⟨intact, bound, kept, rest⟩ := exists_bound ok
  obtain ⟨_, asked, -⟩ := result_bind_eq_ok_iff.mp rest
  exact ⟨intact, kept ▸ Solver.healthy_of_serve rfl (result_attempt_eq_ok_iff.mp asked)⟩

end Perturbation

end Operation

end DualAscent
