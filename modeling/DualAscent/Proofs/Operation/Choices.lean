import DualAscent.Proofs.Ascent.Choices
import DualAscent.Proofs.Contagion
import DualAscent.Proofs.Operation.Supergradient

/-!
# Bounds, choices and gradients of a batch take the same branches

In single precision a bound of the batch is the sum of the branch costs that the layers of its chain
choose, and the backward pass hands the gradient of a bound to the branches that they choose.
-/

namespace DualAscent

open Procedure Batch

section Joined

variable {α σ : Type} [Zero α] {b : Batch σ} {kind : Segmentation}
  {size : Fin b.members.length → Nat}

/-- What a solver contributes to a flat array begins where its place does. -/
theorem getD_joined_toArray (long : ∀ i, (b.placeAt i kind).length = size i)
    (part : (i : Fin b.members.length) → Vector α (size i)) (i : Fin b.members.length)
    (l : Fin (size i)) :
    (joined (List.ofFn fun i => (part i).toArray)).getD ((b.placeAt i kind).start + l) 0 =
      (part i).get l := by
  have filled (i) : (part i).toArray.size = (b.placeAt i kind).length :=
    (part i).size_toArray.trans (long i).symm
  rw [← get_fit_slice (long i), slice_joined_ofFn filled, fit_toArray]

end Joined

section Answers

variable {α : Type} [Scalar α] [Zero α] [Add α] [Sub α] [Mul α] [Neg α]

omit [Sub α] [Mul α] [Neg α] in
theorem Solver.yields_solution {s : Solver α} (intact : s.intact = true)
    (healthy : s.failure ≠ some .solution) {space : Nat} (roomy : space = s.layers) :
    (Solver.solution space).Yields s s s.costs.solution.toArray := by
  have run_eq : (Solver.solution space).run s = ⟨[], s, .ok s.costs.solution.toArray⟩ := by
    simp only [Solver.solution_eq, run_read_bind, checkFailure, if_neg healthy, room, if_pos roomy,
      checkIntact, intact, if_true, run_lift_ok_bind, run_pure]
  exact .of_run run_eq

namespace Operation

variable {branches : Branches (Array α)}

theorem result_solutionOne {total : Nat} (sized : branches.Sized total) {s : Solver α}
    {layers : Span} (long : layers.length = s.layers) (inside : layers.stop ≤ total)
    (intact : s.intact = true) (healthy : s.failure ≠ some .solution) (i : Nat) :
    ((solutionOne branches i layers).run s).result =
      .ok (s.diagrams.undeferred (branches.map layers.slice)).solution.toArray := by
  let bound : Solver α :=
    { s with costs := s.diagrams.undeferred (branches.map layers.slice) }
  let context : Context α := .segments [(.layer, layers)]
  have binding := yields_bindUndeferred sized long inside intact i context
  have asking : (attempt i context (.solution layers.length)).Yields bound bound
      bound.costs.solution.toArray :=
    yields_attempt i context (Solver.yields_solution (s := bound) intact healthy long)
  exact (binding.bind asking).result

variable {b : Batch (Solver α)}

/-- The branch choices of all layers in a batch. -/
def choices (b : Batch (Solver α)) (branches : Branches (Array α)) : Array α :=
  joined (List.ofFn fun i => (costsAt b branches i).solution.toArray)

theorem solution_of_able (able : b.Able .solution)
    (sized : branches.Sized (Sizes.total .layer b.sizes)) :
    ((solution (branches.map .ofArray)).run b).result = .ok (choices b branches) := by
  refine (Call.solution branches).result_perform sized trivial able.stable (fun i => ?_) rfl
  exact result_solutionOne sized (able.stable.length_layers i) (stop_placeAt_le i .layer)
    (able.intact i) (able.healthy i) i

end Operation

end Answers

/-- The numbers of a chain's layers in the arrays of the batch, in order. -/
def Batch.layersAt {α : Type} (b : Batch (Solver α)) (i : Fin b.members.length)
    (chain : Fin (b.solverAt i).bdds) : List Nat :=
  (positions (b.solverAt i).diagrams.chainOf chain).map fun l => (b.placeAt i .layer).start + l.val

namespace Operation

section Entries

variable {α : Type} [Scalar α] [Zero α] [Add α] [Sub α] [Mul α] [Neg α] {b : Batch (Solver α)}
  {branches : Branches (Array α)} {outer : Array α} (stable : b.Stable)
  (i : Fin b.members.length)

include stable

theorem getD_bounds (chain : Fin (b.solverAt i).bdds) :
    (bounds b branches).getD ((b.placeAt i .bdd).start + chain) 0 =
      (boundsAt b branches i).get chain :=
  getD_joined_toArray stable.length_bdds (boundsAt b branches) i chain

variable (l : Fin (b.solverAt i).layers)

theorem getD_choices :
    (choices b branches).getD ((b.placeAt i .layer).start + l) 0 =
      (costsAt b branches i).solution.get l :=
  getD_joined_toArray stable.length_layers (fun i => (costsAt b branches i).solution) i l

theorem getD_gradient :
    (gradient b branches outer).lo.getD ((b.placeAt i .layer).start + l) 0 =
        (gradientAt b branches outer i).lo.get l ∧
      (gradient b branches outer).hi.getD ((b.placeAt i .layer).start + l) 0 =
        (gradientAt b branches outer i).hi.get l := by
  simp only [gradient, joinBranches, List.map_ofFn]
  exact ⟨getD_joined_toArray stable.length_layers (fun i => (gradientAt b branches outer i).lo) i l,
    getD_joined_toArray stable.length_layers (fun i => (gradientAt b branches outer i).hi) i l⟩

theorem get_costsAt :
    (costsAt b branches i).lo.get l = branches.lo.getD ((b.placeAt i .layer).start + l) 0 ∧
      (costsAt b branches i).hi.get l = branches.hi.getD ((b.placeAt i .layer).start + l) 0 :=
  ⟨get_fit_slice (stable.length_layers i) branches.lo l,
    get_fit_slice (stable.length_layers i) branches.hi l⟩

end Entries

section Single

variable {b : Batch (Solver Float32)} {branches : Branches (Array Float32)}
  {outer : Array Float32}

/-- The bound of a chain in the batch. -/
theorem getD_bounds_eq_foldl (stable : b.Stable)
    (numeric : ∀ value ∈ branches.lo, value.isNaN = false) (i : Fin b.members.length)
    (chain : Fin (b.solverAt i).bdds) :
    (bounds b branches).getD ((b.placeAt i .bdd).start + chain) 0 =
      (b.layersAt i chain).foldl (fun sum k => sum + if (choices b branches).getD k 0 = 1 then
        branches.hi.getD k 0 else branches.lo.getD k 0) 0 := by
  have numbers (l : Fin (b.solverAt i).layers) :
      ((costsAt b branches i).lo.get l).isNaN = false := by
    rw [(get_costsAt stable i l).1]
    exact getD_of_forall (p := fun value : Float32 => value.isNaN = false) (by decide +kernel)
      numeric _
  have bare (l : Fin (b.solverAt i).layers) : (costsAt b branches i).deferred.get l = 0 :=
    get_replicate 0 l
  rw [getD_bounds stable, boundsAt, Costs.get_boundsBy_eq_foldl bare numbers, layersAt,
    List.foldl_map]
  simp only [Costs.chosenCost, getD_choices stable, get_costsAt stable]

/-- Zeros in place of a missing gradient are finite. -/
theorem finiteEntries_orZeros {gradient : Option (Array Float32)} {length : Nat}
    (finite : ∀ values ∈ gradient, FiniteEntries values) :
    FiniteEntries (DenseGradients.orZeros gradient length) := by
  cases gradient with
  | none =>
      intro value member
      rw [(Array.mem_replicate.mp member).2]
      decide +kernel
  | some values => exact finite values rfl

theorem isFinite_outer (stable : b.Stable) (finite : FiniteEntries outer)
    (i : Fin b.members.length) (chain : Fin (b.solverAt i).bdds) :
    ((fit (b.solverAt i).bdds ((b.placeAt i .bdd).slice outer)).get chain).isFinite = true := by
  rw [get_fit_slice (stable.length_bdds i)]
  exact getD_of_forall (p := fun value : Float32 => Scalar.isFinite value = true)
    (by decide +kernel) finite _

/-- Finite gradients of bounds are turned into finite gradients of costs. -/
theorem finiteEntries_gradient (stable : b.Stable) (finite : FiniteEntries outer) :
    FiniteEntries (gradient b branches outer).lo ∧
      FiniteEntries (gradient b branches outer).hi := by
  have each (i : Fin b.members.length) (l : Fin (b.solverAt i).layers) :
      ((gradientAt b branches outer i).lo.get l).isFinite = true ∧
        ((gradientAt b branches outer i).hi.get l).isFinite = true :=
    Costs.isFinite_boundGradient (isFinite_outer stable finite i) l
  simp only [gradient, joinBranches, List.map_ofFn, finiteEntries_joined_iff,
    List.forall_mem_ofFn_iff]
  exact ⟨fun i => finiteEntries_toArray_iff.mpr fun l => (each i l).1,
    fun i => finiteEntries_toArray_iff.mpr fun l => (each i l).2⟩

/-- The gradient of a chain's bound goes to the branches that its layers choose. -/
theorem getD_gradient_cases (stable : b.Stable) (finite : FiniteEntries outer)
    (i : Fin b.members.length) (chain : Fin (b.solverAt i).bdds) :
    let gradient := gradient b branches outer
    let value := outer.getD ((b.placeAt i .bdd).start + chain) 0
    ∀ k ∈ b.layersAt i chain,
      ((choices b branches).getD k 0 = 1 ∧ gradient.hi.getD k 0 = value ∧
        gradient.lo.getD k 0 = 0) ∨
      ((choices b branches).getD k 0 = 0 ∧ (gradient.lo.getD k 0 == value) = true ∧
        gradient.hi.getD k 0 = 0) := by
  intro gradient value k member
  obtain ⟨l, inside, rfl⟩ := List.mem_map.mp member
  obtain rfl : (b.solverAt i).diagrams.chainOf.get l = chain :=
    of_decide_eq_true (List.mem_filter.mp inside).2
  have cases := Costs.boundGradient_cases (c := costsAt b branches i)
    (isFinite_outer stable finite i ((b.solverAt i).diagrams.chainOf.get l))
  rw [get_fit_slice (stable.length_bdds i)] at cases
  rw [getD_choices stable, (getD_gradient stable i l).1, (getD_gradient stable i l).2]
  exact cases

end Single

/-- In single precision, if no low branch cost is undefined, a bound is what comes out when the
costs that the layers of its chain choose are added up in order, starting from zero.  The backward
pass accepts finite gradients of the bounds and hands the gradient of each bound, but for the sign
of a zero, to the branches that the layers of its chain choose, and zero to the other ones.  Equal
numbers have equal bits here, but for undefined ones, which all are equal.  Bounds, choices and
gradient may be asked for at any time, as long as the solvers keep their standing. -/
theorem bounds_choices_gradient_agree {b b' b'' : Batch (Solver Float32)}
    (same : standings b' = standings b) (same' : standings b'' = standings b)
    {branches : Branches (Buffer Float32)}
    (numeric : ∀ value ∈ branches.lo.elements, value.isNaN = false)
    {bounds : Array Float32} {record : Saved (Branches (Array Float32))}
    (told : ((lowerBounds branches).run b).result = .ok (bounds, record))
    (healthy : ∀ i : Fin b.members.length, (b.solverAt i).failure ≠ some .solution)
    {gradients : OutputGradients Float32}
    (fits : ∀ values ∈ gradients.values, values.length = b.total .bdd ∧ Packable values)
    (finite : ∀ values ∈ gradients.values, FiniteEntries values.elements) :
    let lo := branches.lo.elements
    let hi := branches.hi.elements
    let outer := DenseGradients.orZeros (gradients.values.map Buffer.elements) (b.total .bdd)
    ∃ choices gradient,
      ((solution branches).run b').result = .ok choices ∧
      ((lowerBoundsBackward record gradients).run b'').result = .ok gradient ∧
      bounds.size = b.total .bdd ∧ choices.size = b.total .layer ∧
      gradient.Sized (b.total .layer) ∧
      ∀ (i : Fin b.members.length) (chain : Fin (b.solverAt i).bdds),
        let j := (b.placeAt i .bdd).start + chain
        bounds.getD j 0 = (b.layersAt i chain).foldl (fun sum k =>
          sum + if choices.getD k 0 = 1 then hi.getD k 0 else lo.getD k 0) 0 ∧
        ∀ k ∈ b.layersAt i chain,
          (choices.getD k 0 = 1 ∧ gradient.hi.getD k 0 = outer.getD j 0 ∧
            gradient.lo.getD k 0 = 0) ∨
          (choices.getD k 0 = 0 ∧ (gradient.lo.getD k 0 == outer.getD j 0) = true ∧
            gradient.hi.getD k 0 = 0) := by
  obtain ⟨able, sized, answer⟩ := able_of_lowerBounds told
  have stable := able.stable
  cases answer
  intro lo hi outer
  have finite_outer : FiniteEntries outer := by
    refine finiteEntries_orZeros fun elements found => ?_
    obtain ⟨values, given, rfl⟩ := Option.mem_map.mp found
    exact finite values given
  rw [total_eq_sum] at fits
  have given : outer.size = Sizes.total .bdd b.sizes := by
    rw [← b.total_eq_sum]
    exact size_elements_orZeros (b.total_eq_sum .bdd ▸ fits)
  let arrays := branches.map Buffer.elements
  obtain ⟨finite_lo, finite_hi⟩ : FiniteEntries (gradient b arrays outer).lo ∧
      FiniteEntries (gradient b arrays outer).hi := finiteEntries_gradient stable finite_outer
  refine ⟨choices b arrays, gradient b arrays outer, ?_, ?_, size_bounds able, ?_,
    sized_gradient able outer, fun i chain => ⟨getD_bounds_eq_foldl stable numeric i chain,
      getD_gradient_cases stable finite_outer i chain⟩⟩
  · obtain ⟨_, dense, -⟩ := result_lift_bind_eq_ok_iff.mp told
    obtain rfl := elements_of_denseBranches dense
    have packed : (solution branches : Work Float32 (Solver Float32) _) =
        solution (arrays.map .ofArray) := by
      rw [solution, solution, dense, denseBranches_ofArray sized]
    rw [(agrees_solution branches same).result, packed]
    exact solution_of_able ⟨stable, able.intact, healthy⟩ sized
  · rw [(agrees_lowerBoundsBackward _ gradients same').result, lowerBoundsBackward_congr fits]
    dsimp only
    rw [← b.total_eq_sum]
    exact lowerBoundsBackward_of_finite able sized given finite_lo finite_hi
  · exact (size_joined_toArray stable.length_layers fun i =>
      (costsAt b arrays i).solution).trans (b.total_eq_sum .layer).symm

/-- A solver with one chain and one with two, in single precision. -/
def unevenSingles : Batch (Solver Float32) :=
  ofSolvers [.ofDiagrams ⟨1, [[.last 0]]⟩ none none,
    .ofDiagrams ⟨1, [[.last 0], [.last 0]]⟩ none none]

/-- Two zeros tie whatever their signs, an undefined cost is never chosen, and the last chain
chooses an infinite cost and avoids another one. -/
theorem unevenSingles_agree :
    let lo : Array Float32 := #[2, -0, 1, 0, 0, 1 / 0]
    let hi : Array Float32 := #[1, 0, 0 / 0, -0, -1 / 0, 5]
    let costs : Branches (Buffer Float32) := ⟨.ofArray lo, .ofArray hi⟩
    let gradients : OutputGradients Float32 := ⟨none, none, none, none, some (.ofArray #[1, -0, 3])⟩
    let told := (lowerBounds costs).run unevenSingles
    let chosen := (solution costs).run told.state
    ∃ bounds record choices gradient,
      told.result = .ok (bounds, record) ∧ chosen.result = .ok choices ∧
      ((lowerBoundsBackward record gradients).run chosen.state).result = .ok gradient ∧
      bounds.getD 2 0 = [4, 5].foldl (fun sum k =>
        sum + if choices.getD k 0 = 1 then hi.getD k 0 else lo.getD k 0) 0 ∧
      ∀ k ∈ [4, 5],
        (choices.getD k 0 = 1 ∧ gradient.hi.getD k 0 = 3 ∧ gradient.lo.getD k 0 = 0) ∨
        (choices.getD k 0 = 0 ∧ (gradient.lo.getD k 0 == 3) = true ∧
          gradient.hi.getD k 0 = 0) := by
  intro lo hi costs gradients told chosen
  have answers : told.result.toOption.isSome = true := by decide +kernel
  obtain ⟨⟨bounds, record⟩, found⟩ := Option.isSome_iff_exists.mp answers
  have ok := toOption_eq_some_iff.mp found
  have same : standings told.state = standings unevenSingles :=
    fixes_lowerBounds (fun _ _ => rfl) costs unevenSingles
  have same' : standings chosen.state = standings unevenSingles :=
    (fixes_solution (fun _ _ => rfl) costs told.state).trans same
  have fits : ∀ values ∈ gradients.values, values.length = unevenSingles.total .bdd ∧
      Packable values := by
    intro values given
    cases given
    exact ⟨by decide +kernel, fun _ => rfl⟩
  have finite : ∀ values ∈ gradients.values, FiniteEntries values.elements := by
    intro values given
    cases given
    rw [Buffer.elements_ofArray]
    show ∀ value ∈ #[(1 : Float32), -0, 3], value.isFinite = true
    decide +kernel
  obtain ⟨choices, gradient, chosen_ok, returned, -, -, -, agree⟩ :=
    bounds_choices_gradient_agree same same' (by decide +kernel) ok (by decide +kernel) fits finite
  let second : Fin unevenSingles.members.length := ⟨1, by decide⟩
  let last : Fin (unevenSingles.solverAt second).bdds := ⟨1, by decide⟩
  have layers : unevenSingles.layersAt second last = [4, 5] := by decide +kernel
  have place : (unevenSingles.placeAt second .bdd).start + last.val = 2 := by decide +kernel
  have here := agree second last
  simp only [layers, place, costs, gradients, Option.map_some, Buffer.elements_ofArray] at here
  exact ⟨bounds, record, choices, gradient, ok, chosen_ok, returned, here.1, here.2⟩

end Operation

end DualAscent
