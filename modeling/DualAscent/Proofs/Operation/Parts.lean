import DualAscent.Proofs.Finite
import DualAscent.Proofs.Operation.Carried
import DualAscent.Proofs.Operation.Cut
import DualAscent.Proofs.Solver.Room
import Mathlib.Data.List.Forall2

/-!
# Answers in parts

What a solver answers has the length of its segments.  An answer of the batch, cut at the place of
a solver, is therefore what comes out if the answer of that solver is all there is.
-/

namespace DualAscent

open Procedure Batch

section Joined

variable {α : Type} {sizes : List Sizes} {i : Nat} {size : Sizes} {kind : Segmentation}

theorem Operation.map_slice_joinBranches (kind : Segmentation) {parts : List (Branches (Array α))}
    {part : Branches (Array α)}
    (filled : List.Forall₂ (fun size part => part.Sized (size.segment kind)) sizes parts)
    (found : sizes[i]? = some size) (part_eq : parts[i]? = some part) :
    (joinBranches parts).map (place sizes i size kind).slice = part := by
  have segment (f : Branches (Array α) → Array α)
      (long : ∀ {n part}, part.Sized n → (f part).size = n) :
      (place sizes i size kind).slice (joined (parts.map f)) = f part := by
    refine slice_joined kind (List.forall₂_map_right_iff.mpr (filled.imp fun _ _ => long)) found ?_
    rw [List.getElem?_map, part_eq]
    rfl
  exact congrArg₂ Branches.mk (segment (·.lo) Branches.Sized.lo) (segment (·.hi) Branches.Sized.hi)

theorem Operation.map_slice_joinCosts (kind : Segmentation)
    {parts : List (Costs (Array α))} {part : Costs (Array α)}
    (filled : List.Forall₂ (fun size part => part.Sized (size.segment kind)) sizes parts)
    (found : sizes[i]? = some size) (part_eq : parts[i]? = some part) :
    (joinCosts parts).map (place sizes i size kind).slice = part := by
  have segment (f : Costs (Array α) → Array α)
      (long : ∀ {n part}, part.Sized n → (f part).size = n) :
      (place sizes i size kind).slice (joined (parts.map f)) = f part := by
    refine slice_joined kind (List.forall₂_map_right_iff.mpr (filled.imp fun _ _ => long)) found ?_
    rw [List.getElem?_map, part_eq]
    rfl
  exact congrArg₂ Costs.mk (congrArg₂ Branches.mk
    (segment (·.lo) fun sized => sized.lo) (segment (·.hi) fun sized => sized.hi))
    (segment (·.deferred) Costs.Sized.deferred)

theorem Operation.sized_joinBranches (kind : Segmentation) {parts : List (Branches (Array α))}
    (filled : List.Forall₂ (fun size part => part.Sized (size.segment kind)) sizes parts) :
    (joinBranches parts).Sized (Sizes.total kind sizes) where
  lo := size_joined kind (List.forall₂_map_right_iff.mpr (filled.imp fun _ _ sized => sized.lo))
  hi := size_joined kind (List.forall₂_map_right_iff.mpr (filled.imp fun _ _ sized => sized.hi))

theorem Operation.sized_joinCosts (kind : Segmentation) {parts : List (Costs (Array α))}
    (filled : List.Forall₂ (fun size part => part.Sized (size.segment kind)) sizes parts) :
    (joinCosts parts).Sized (Sizes.total kind sizes) where
  lo := size_joined kind (List.forall₂_map_right_iff.mpr (filled.imp fun _ _ sized => sized.lo))
  hi := size_joined kind (List.forall₂_map_right_iff.mpr (filled.imp fun _ _ sized => sized.hi))
  deferred := size_joined kind
    (List.forall₂_map_right_iff.mpr (filled.imp fun _ _ sized => sized.deferred))

theorem Operation.joinBranches_singleton (branches : Branches (Array α)) :
    joinBranches [branches] = branches := by
  simp only [joinBranches, List.map_cons, List.map_nil, joined_singleton]

theorem Operation.joinCosts_singleton (costs : Costs (Array α)) : joinCosts [costs] = costs := by
  simp only [joinCosts, List.map_cons, List.map_nil, joined_singleton]

theorem Damping.Sized.size_toArray {β τ : Type} {damping : Damping α (Array α)} {factors : τ}
    {n : Nat} (sized : damping.Sized n)
    (matched : damping.Matches (perLayer factors : Damping β τ)) : damping.toArray.size = n := by
  cases damping with
  | shared value => cases matched
  | perLayer gradients => exact sized

theorem finite_of_slices [Scalar α] {values : Array α}
    (sized : values.size = Sizes.total kind sizes)
    (each : ∀ i size, sizes[i]? = some size →
      FiniteEntries ((place sizes i size kind).slice values)) : FiniteEntries values := by
  intro value inside
  obtain ⟨i, size, found, here⟩ := exists_mem_slice sized inside
  exact each i size found value here

end Joined

namespace Call

variable {α π β : Type} {sizes : List Sizes} {i : Nat} {size : Sizes}

/-- An answer has the length of the segments of a solver. -/
def Fills (size : Sizes) : Call α π β → π → Prop
  | ascend _ settings, (realized, costs) => costs.Sized size.layers ∧
      realized.trend.isSome = settings.summarises ∧
      ∀ trend ∈ realized.trend, Trend.Sized ⟨size.layers, size.bdds, size.bdds⟩ trend
  | redistribute _, costs => costs.Sized size.layers
  | minMarginals _, values => values.size = size.layers
  | perturb _, branches => branches.Sized size.layers
  | lowerBounds _, values => values.size = size.bdds
  | ascendBackward record _, gradient =>
    gradient.Sized size.layers ∧ gradient.damping.Matches record.inputs.damping
  | redistributeBackward .., values => values.size = size.layers
  | minMarginalsBackward .., branches => branches.Sized size.layers
  | perturbBackward .., branches => branches.Sized (size.segment .slot)
  | lowerBoundsBackward .., branches => branches.Sized size.layers
  | round .., _ => True
  | solution _, values => values.size = size.layers

variable [Scalar α] [Zero α] [Add α] [Sub α] [Mul α] [Neg α] {call : Call α π β}

theorem fills_of_one {s : Solver α} {part : π}
    (ok : ((call.one i (place sizes i size)).run s).result = .ok part) : call.Fills size part := by
  have long (kind : Segmentation) : (place sizes i size kind).length = size.segment kind :=
    length_place sizes i size kind
  cases call with
  | ascend inputs settings =>
      simp only [one, Operation.ascendOne, Operation.ascendWith, Operation.roomForCosts,
        result_bind_eq_ok_iff, result_attempt_eq_ok_iff, long] at ok
      obtain ⟨_, -, _, -, realized, ran, costs, read, same⟩ := ok
      cases same
      obtain ⟨summarised, sized⟩ := Solver.sized_of_iterate ran
      refine ⟨Solver.sized_of_readCosts read, ?_⟩
      by_cases summarises : settings.summarises = true
      · rw [Operation.trendRequest, if_pos summarises] at summarised sized
        refine ⟨summarised.trans summarises.symm, fun trend inside => ?_⟩
        have roomy := sized _ rfl trend inside
        rw [length_place, length_place] at roomy
        exact roomy
      · rw [Operation.trendRequest, if_neg summarises] at summarised
        refine ⟨summarised.trans (eq_false_of_ne_true summarises).symm, fun trend inside => ?_⟩
        rw [Option.mem_def.mp inside] at summarised
        cases summarised
  | redistribute costs =>
      simp only [one, Operation.redistributeOne, Operation.redistributeWith,
        Operation.roomForCosts, result_bind_eq_ok_iff, result_attempt_eq_ok_iff, long] at ok
      obtain ⟨_, -, _, -, _, -, read⟩ := ok
      exact Solver.sized_of_readCosts read
  | minMarginals branches =>
      simp only [one, Operation.minMarginalsOne, Operation.consult, Operation.ask,
        result_bind_eq_ok_iff, result_attempt_eq_ok_iff, long] at ok
      obtain ⟨_, -, _, -, read⟩ := ok
      exact Solver.size_of_minMarginals read
  | perturb inputs =>
      simp only [one, Operation.perturbOne, Operation.perturbWith, Operation.roomForCosts,
        result_bind_eq_ok_iff, result_attempt_eq_ok_iff, long] at ok
      obtain ⟨_, -, _, -, _, -, costs, read, same⟩ := ok
      cases same
      exact (Solver.sized_of_readCosts read).toSized
  | lowerBounds branches =>
      simp only [one, Operation.lowerBoundsOne, Operation.consult, Operation.ask,
        result_bind_eq_ok_iff, result_attempt_eq_ok_iff, long] at ok
      obtain ⟨_, -, _, -, read⟩ := ok
      exact Solver.size_of_lowerBounds read
  | ascendBackward record gradients =>
      have swept := ((ending_eq_iff.mp (ending_one_ascendBackward i (place sizes i size) s)).2
        part).mp ok
      simp only [Operation.sweepOne, result_bind_eq_ok_iff] at swept
      obtain ⟨_, -, swept⟩ := swept
      obtain ⟨sized, matched⟩ := Solver.sized_of_gradIterations swept
      constructor
      · rw [Operation.zeros, Array.size_replicate, long] at sized
        exact sized
      · apply matched.trans
        rw [Operation.incomingDamping, Inputs.map]
        cases record.inputs.damping with
        | shared value => rfl
        | perLayer factors => rfl
  | redistributeBackward record gradients =>
      simp only [one, Operation.redistributeOneBackward, Operation.ask, result_bind_eq_ok_iff,
        result_attempt_eq_ok_iff, long] at ok
      obtain ⟨_, -, read⟩ := ok
      exact Solver.size_of_distributeBackward read
  | minMarginalsBackward record gradients =>
      simp only [one, Operation.minMarginalsOneBackward, Operation.ask, result_bind_eq_ok_iff,
        result_attempt_eq_ok_iff, long] at ok
      obtain ⟨_, -, read⟩ := ok
      exact Solver.sized_of_minMarginalsBackward read
  | perturbBackward record gradients =>
      simp only [one, Operation.perturbOneBackward, Operation.ask, result_bind_eq_ok_iff,
        result_attempt_eq_ok_iff, long] at ok
      obtain ⟨_, -, read⟩ := ok
      exact Solver.sized_of_perturbBackward read
  | lowerBoundsBackward record gradients =>
      simp only [one, Operation.lowerBoundsOneBackward, Operation.ask, result_bind_eq_ok_iff,
        result_attempt_eq_ok_iff, long] at ok
      obtain ⟨_, -, read⟩ := ok
      exact Solver.sized_of_lowerBoundsBackward read
  | round costs settings => trivial
  | solution branches =>
      simp only [one, Operation.solutionOne, Operation.ask, result_bind_eq_ok_iff,
        result_attempt_eq_ok_iff, long] at ok
      obtain ⟨_, -, read⟩ := ok
      exact Solver.size_of_solution read

variable {parts : List π} {part : π}

omit [Scalar α] [Zero α] [Add α] [Sub α] [Mul α] [Neg α] in
theorem map_slice_gathered {record : AscentRecord α} {parts : List (Inputs α (Array α))}
    {part : Inputs α (Array α)} (carried : α)
    (filled : List.Forall₂ (fun size part => part.Sized size.layers ∧
      part.damping.Matches record.inputs.damping) sizes parts)
    (found : sizes[i]? = some size) (part_eq : parts[i]? = some part) :
    (Operation.gathered record carried parts).map (place sizes i size .layer).slice =
      Operation.gathered (cutAscent record (place sizes i size) i size) carried [part] := by
  have segment (f : Inputs α (Array α) → Array α)
      (long : ∀ (size : Sizes) part, part.Sized size.layers ∧
        part.damping.Matches record.inputs.damping → (f part).size = size.segment .layer) :
      (place sizes i size .layer).slice (joined (parts.map f)) = f part := by
    refine slice_joined .layer (List.forall₂_map_right_iff.mpr (filled.imp long)) found ?_
    rw [List.getElem?_map, part_eq]
    rfl
  have costs_at : (parts.map (·.costs))[i]? = some part.costs := by
    rw [List.getElem?_map, part_eq]
    rfl
  have costs := Operation.map_slice_joinCosts .layer
    (List.forall₂_map_right_iff.mpr (filled.imp fun _ _ fills => fills.1.costs)) found costs_at
  have weights := segment (·.weights) fun _ _ fills => fills.1.weights
  simp only [Operation.gathered, Inputs.map, cutAscent, List.map_cons, List.map_nil,
    Operation.joinCosts_singleton, joined_singleton, costs, weights]
  cases kind : record.inputs.damping with
  | shared value => rfl
  | perLayer factors =>
      have damping := segment (·.damping.toArray) fun _ _ fills =>
        fills.1.damping.size_toArray (kind ▸ fills.2)
      simp only [Damping.map, damping]

omit [Scalar α] [Zero α] [Add α] [Sub α] [Mul α] [Neg α] in
theorem sized_gathered_of_filled {record : AscentRecord α} {parts : List (Inputs α (Array α))}
    (carried : α) (filled : List.Forall₂ (fun size part => part.Sized size.layers ∧
      part.damping.Matches record.inputs.damping) sizes parts) :
    (Operation.gathered record carried parts).Sized (Sizes.total .layer sizes) where
  costs := Operation.sized_joinCosts .layer
    (List.forall₂_map_right_iff.mpr (filled.imp fun _ _ fills => fills.1.costs))
  weights := size_joined .layer
    (List.forall₂_map_right_iff.mpr (filled.imp fun _ _ fills => fills.1.weights))
  damping := by
    cases kind : record.inputs.damping with
    | shared value =>
        simp only [Operation.gathered, kind]
        trivial
    | perLayer factors =>
        simp only [Operation.gathered, kind]
        exact size_joined .layer (List.forall₂_map_right_iff.mpr (filled.imp fun _ _ fills =>
          fills.1.damping.size_toArray (kind ▸ fills.2)))

omit [Scalar α] [Zero α] [Add α] [Sub α] [Mul α] [Neg α] in
theorem filled_trends {inputs : Inputs α (Array α)} {settings : AscentSettings α}
    {parts : List (Realized α × Costs (Array α))}
    (filled : List.Forall₂ (fun size => (ascend inputs settings).Fills size) sizes parts)
    (summarises : settings.summarises = true) :
    List.Forall₂ (fun size trend => Trend.Sized ⟨size.layers, size.bdds, size.bdds⟩ trend) sizes
      (parts.filterMap fun part => part.1.trend) ∧
      ∀ i : Nat, (parts.filterMap fun part => part.1.trend)[i]? =
        parts[i]?.bind fun part => part.1.trend := by
  induction filled with
  | nil => exact ⟨.nil, fun _ => rfl⟩
  | @cons size part sizes parts here rest ih =>
      obtain ⟨-, summarised, sized⟩ := here
      obtain ⟨trend, trend_eq⟩ := Option.isSome_iff_exists.mp (summarised.trans summarises)
      have first : (part :: parts).filterMap (fun part => part.1.trend) =
          trend :: parts.filterMap fun part => part.1.trend := List.filterMap_cons_some trend_eq
      rw [first]
      refine ⟨.cons (sized trend trend_eq) ih.1, fun i => ?_⟩
      cases i with
      | zero => exact trend_eq.symm
      | succ i => exact ih.2 i

omit [Scalar α] [Zero α] [Add α] [Sub α] [Mul α] [Neg α] in
theorem slice_trends {inputs : Inputs α (Array α)} {settings : AscentSettings α}
    {parts : List (Realized α × Costs (Array α))} {part : Realized α × Costs (Array α)}
    (filled : List.Forall₂ (fun size => (ascend inputs settings).Fills size) sizes parts)
    (summarises : settings.summarises = true) (found : sizes[i]? = some size)
    (part_eq : parts[i]? = some part) :
    let trends := parts.filterMap fun part => part.1.trend
    ∃ trend, part.1.trend = some trend ∧
      (place sizes i size .layer).slice (joined (trends.map (·.average))) = trend.average ∧
      (place sizes i size .bdd).slice (joined (trends.map (·.first))) = trend.first ∧
      (place sizes i size .bdd).slice (joined (trends.map (·.second))) = trend.second := by
  intro trends
  obtain ⟨sized, trend_at⟩ := filled_trends filled summarises
  have inside := (List.getElem?_eq_some_iff.mp found).1
  rw [sized.length_eq] at inside
  have here : trends[i]? = some trends[i] := List.getElem?_eq_getElem inside
  have segment (kind : Segmentation) (f : Trend (Array α) → Array α)
      (long : ∀ (size : Sizes) trend, Trend.Sized ⟨size.layers, size.bdds, size.bdds⟩ trend →
        (f trend).size = size.segment kind) :
      (place sizes i size kind).slice (joined (trends.map f)) = f trends[i] := by
    refine slice_joined kind (List.forall₂_map_right_iff.mpr (sized.imp long)) found ?_
    rw [List.getElem?_map, here]
    rfl
  refine ⟨trends[i], ?_, segment .layer (·.average) fun _ _ sized => sized.average,
    segment .bdd (·.first) fun _ _ sized => sized.first,
    segment .bdd (·.second) fun _ _ sized => sized.second⟩
  rw [← here, trend_at i, part_eq]
  rfl

omit [Scalar α] [Add α] [Sub α] [Mul α] [Neg α] in
/-- What is put together from one solver's answer is a share of what all answers make up. -/
theorem answer_cut (fits : call.Fits sizes) (filled : List.Forall₂ call.Fills sizes parts)
    (found : sizes[i]? = some size) (part_eq : parts[i]? = some part) :
    (call.cut (place sizes i size) i size).answer [size] [part] =
      call.cutAnswer (place sizes i size) i size (call.answer sizes parts) := by
  cases call with
  | ascend inputs settings =>
      have costs_at : (parts.map (·.2))[i]? = some part.2 := by
        rw [List.getElem?_map, part_eq]
        rfl
      have runs_at : (parts.map (·.1.iterations))[i]? = some part.1.iterations := by
        rw [List.getElem?_map, part_eq]
        rfl
      have costs_eq := Operation.map_slice_joinCosts .layer
        (List.forall₂_map_right_iff.mpr (filled.imp fun _ _ fills => fills.1)) found costs_at
      simp only [cut, cutAnswer, cutAscent, answer, List.map_cons, List.map_nil,
        Operation.joinCosts_singleton, costs_eq, runs_at]
      by_cases summarises : settings.summarises = true
      · obtain ⟨trend, trend_eq, average, first, second⟩ :=
          slice_trends filled summarises found part_eq
        have alone : [part].filterMap (fun part => part.1.trend) = [trend] :=
          List.filterMap_cons_some trend_eq
        simp only [if_pos summarises, alone, List.map_cons, List.map_nil, joined_singleton,
          Option.map_some, average, first, second]
        rfl
      · simp only [if_neg summarises]
        rfl
  | redistribute costs =>
      have costs_eq := Operation.map_slice_joinCosts .layer filled found part_eq
      simp only [cut, cutAnswer, answer, Operation.joinCosts_singleton, costs_eq]
      rfl
  | minMarginals branches =>
      have values_eq := slice_joined .layer filled found part_eq
      simp only [cut, cutAnswer, answer, joined_singleton, values_eq]
      rfl
  | perturb inputs =>
      have branches_eq := Operation.map_slice_joinBranches .layer filled found part_eq
      simp only [cut, cutAnswer, answer, Operation.joinBranches_singleton, branches_eq]
      rfl
  | lowerBounds branches =>
      have values_eq := slice_joined .bdd filled found part_eq
      simp only [cut, cutAnswer, answer, joined_singleton, values_eq]
      rfl
  | ascendBackward record gradients => exact (map_slice_gathered 0 filled found part_eq).symm
  | redistributeBackward record gradients =>
      obtain ⟨-, inputs, -⟩ := fits
      have values_eq := slice_joined .layer filled found part_eq
      have lo_eq : (record.inputs.map (place sizes i size .layer).slice).lo.size = size.layers :=
        (inputs.cut found).lo
      simp only [cut, cutRecord, answer, joined_singleton, lo_eq,
        DenseGradients.branches_cut found, ← inputs.lo]
      exact congrArg (Costs.mk _) values_eq.symm
  | minMarginalsBackward record gradients =>
      have branches_eq := Operation.map_slice_joinBranches .layer filled found part_eq
      simp only [cut, cutAnswer, answer, Operation.joinBranches_singleton, branches_eq]
  | perturbBackward record gradients =>
      obtain ⟨-, -, costs, -⟩ := fits
      have branches_eq := Operation.map_slice_joinBranches .slot filled found part_eq
      have lo_eq : (record.inputs.costs.map (place sizes i size .layer).slice).lo.size =
          size.layers := (costs.cut found).lo
      simp only [cut, cutRecord, cutPerturbed, answer, Operation.joinBranches_singleton, lo_eq,
        DenseGradients.branches_cut found, ← costs.lo]
      exact congrArg (Perturbed.mk · _) branches_eq.symm
  | lowerBoundsBackward record gradients =>
      have branches_eq := Operation.map_slice_joinBranches .layer filled found part_eq
      simp only [cut, cutAnswer, answer, Operation.joinBranches_singleton, branches_eq]
  | round costs settings =>
      simp only [cut, cutAnswer, answer, part_eq]
      rfl
  | solution branches =>
      have values_eq := slice_joined .layer filled found part_eq
      simp only [cut, cutAnswer, answer, joined_singleton, values_eq]

/-- The segments of one solver of named gradients. -/
def cutNamed (place : Segmentation → Span) (gradient : String × Segmentation × Array α) :
    String × Segmentation × Array α :=
  (gradient.1, gradient.2.1, (place gradient.2.1).slice gradient.2.2)

omit [Scalar α] [Add α] [Sub α] [Mul α] [Neg α] in
theorem outgoing_cut (separate : call.Separate) (place : Segmentation → Span) :
    (call.cut place i size).outgoing (call.cutAnswer place i size (call.answer sizes parts)) =
      (call.outgoing (call.answer sizes parts)).map (cutNamed place) := by
  cases call with
  | ascendBackward record gradients =>
      have separate : record.inputs.damping.shared? = none := separate
      cases kind : record.inputs.damping with
      | shared value =>
          rw [kind] at separate
          cases separate
      | perLayer factors =>
          simp only [cut, answer, cutAnswer, Operation.gathered, kind]
          rfl
  | _ => rfl

omit [Add α] [Sub α] [Mul α] [Neg α] in
theorem finish_eq_ok_iff {value : β} :
    call.finish sizes parts = .ok value ↔
      (∀ gradient ∈ call.outgoing (call.answer sizes parts), FiniteEntries gradient.2.2) ∧
        call.answer sizes parts = value := by
  rw [finish]
  have finite : (∀ gradient ∈ call.outgoing (call.answer sizes parts), FiniteEntries gradient.2.2) ↔
      Operation.requireFiniteArrays ((call.outgoing (call.answer sizes parts)).map
        fun gradient => (gradient.1, gradient.2.2)) = .ok () := by
    rw [Operation.requireFiniteArrays_eq_ok_iff, List.forall_mem_map]
  rw [finite]
  cases Operation.requireFiniteArrays ((call.outgoing (call.answer sizes parts)).map
    fun gradient => (gradient.1, gradient.2.2)) with
  | error e =>
      constructor
      · intro failed
        cases failed
      · rintro ⟨failed, -⟩
        cases failed
  | ok _ =>
      constructor
      · intro ok
        exact ⟨rfl, Except.ok.inj ok⟩
      · rintro ⟨-, same⟩
        exact congrArg Except.ok same

omit [Add α] [Sub α] [Mul α] [Neg α] in
theorem finish_cut (fits : call.Fits sizes) (separate : call.Separate)
    (filled : List.Forall₂ call.Fills sizes parts)
    (found : sizes[i]? = some size) (part_eq : parts[i]? = some part) {value : β}
    (ok : call.finish sizes parts = .ok value) :
    (call.cut (place sizes i size) i size).finish [size] [part] =
      .ok (call.cutAnswer (place sizes i size) i size value) := by
  obtain ⟨finite, rfl⟩ := finish_eq_ok_iff.mp ok
  have answer_eq := answer_cut fits filled found part_eq
  refine finish_eq_ok_iff.mpr ⟨?_, answer_eq⟩
  rw [answer_eq, outgoing_cut separate, List.forall_mem_map]
  exact fun gradient member => (finite gradient member).slice _

omit [Scalar α] [Add α] [Sub α] [Mul α] [Neg α] in
theorem sized_outgoing (fits : call.Fits sizes) (separate : call.Separate)
    (filled : List.Forall₂ call.Fills sizes parts) :
    ∀ gradient ∈ call.outgoing (call.answer sizes parts),
      gradient.2.2.size = Sizes.total gradient.2.1 sizes := by
  cases call with
  | ascendBackward record gradients =>
      have sized := sized_gathered_of_filled 0 filled
      have damping : (Operation.gathered record 0 parts).damping.toArray.size =
          Sizes.total .layer sizes := by
        have separate : record.inputs.damping.shared? = none := separate
        cases kind : record.inputs.damping with
        | shared value =>
            rw [kind] at separate
            cases separate
        | perLayer factors =>
            have matched : (Operation.gathered record 0 parts).damping.Matches
                (.perLayer factors : Damping α (Array α)) := by
              simp only [Operation.gathered, kind]
              rfl
            exact sized.damping.size_toArray matched
      simp only [outgoing, answer, List.forall_mem_cons]
      exact ⟨sized.costs.lo, sized.costs.hi, sized.costs.deferred, sized.weights, damping,
        List.forall_mem_nil _⟩
  | redistributeBackward record gradients =>
      obtain ⟨-, inputs, outer⟩ := fits
      have branches := outer.sized_branches
      rw [← inputs.lo] at branches
      simp only [outgoing, answer, List.forall_mem_cons]
      exact ⟨branches.lo.trans inputs.lo, branches.hi.trans inputs.lo, size_joined .layer filled,
        List.forall_mem_nil _⟩
  | minMarginalsBackward record gradients =>
      have branches := Operation.sized_joinBranches .layer filled
      simp only [outgoing, answer, List.forall_mem_cons]
      exact ⟨branches.lo, branches.hi, List.forall_mem_nil _⟩
  | perturbBackward record gradients =>
      obtain ⟨-, -, costs, outer⟩ := fits
      have branches := outer.sized_branches
      rw [← costs.lo] at branches
      have change := Operation.sized_joinBranches .slot filled
      simp only [outgoing, answer, List.forall_mem_cons]
      exact ⟨change.lo, change.hi, branches.lo.trans costs.lo, branches.hi.trans costs.lo,
        List.forall_mem_nil _⟩
  | lowerBoundsBackward record gradients =>
      have branches := Operation.sized_joinBranches .layer filled
      simp only [outgoing, answer, List.forall_mem_cons]
      exact ⟨branches.lo, branches.hi, List.forall_mem_nil _⟩
  | _ => exact List.forall_mem_nil _

omit [Add α] [Sub α] [Mul α] [Neg α] in
theorem finish_of_each (fits : call.Fits sizes) (separate : call.Separate)
    (filled : List.Forall₂ call.Fills sizes parts)
    (each : ∀ i size part, sizes[i]? = some size → parts[i]? = some part →
      ∃ value, (call.cut (place sizes i size) i size).finish [size] [part] = .ok value) :
    ∃ value, call.finish sizes parts = .ok value := by
  refine ⟨_, finish_eq_ok_iff.mpr ⟨fun gradient member => ?_, rfl⟩⟩
  refine finite_of_slices (sized_outgoing fits separate filled gradient member)
    fun i size found => ?_
  have inside := (List.getElem?_eq_some_iff.mp found).1
  rw [filled.length_eq] at inside
  have part_eq := List.getElem?_eq_getElem inside
  obtain ⟨value, ok⟩ := each i size _ found part_eq
  have finite := (finish_eq_ok_iff.mp ok).1
  rw [answer_cut fits filled found part_eq, outgoing_cut separate, List.forall_mem_map] at finite
  exact finite gradient member

end Call

end DualAscent
