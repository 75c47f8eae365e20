import DualAscent.Proofs.Operation.Answers
import DualAscent.Proofs.Operation.Elements
import DualAscent.Proofs.Operation.Parts
import DualAscent.Proofs.Operation.Standing
import DualAscent.Proofs.Solver.Room
import DualAscent.Proofs.Supergradient

/-!
# Lower bounds and their gradient

Solvers that are able to tell bounds tell those of the segments they are handed, and turn incoming
gradients into the gradients of these bounds.  What the operation returns is joined from that, and a
forward pass that answers shows that all solvers of the batch are able to.
-/

namespace DualAscent

open Procedure Batch

section Answers

variable {α : Type} [Scalar α] [Zero α]

/-- The working costs of these branch costs, with nothing deferred. -/
def Diagrams.undeferred (d : Diagrams) (branches : Branches (Array α)) :
    Costs (Vector α d.layers) :=
  ⟨⟨fit d.layers branches.lo, fit d.layers branches.hi⟩, Vector.replicate d.layers 0⟩

omit [Scalar α] in
theorem Operation.map_toArray_undeferred {d : Diagrams} {branches : Branches (Array α)}
    {total : Nat} (sized : branches.Sized total) {layers : Span} (long : layers.length = d.layers)
    (inside : layers.stop ≤ total) :
    (d.undeferred (branches.map layers.slice)).map Vector.toArray = undeferred branches layers := by
  have lo := toArray_fit ((layers.size_slice _ (sized.lo ▸ inside)).trans long)
  have hi := toArray_fit ((layers.size_slice _ (sized.hi ▸ inside)).trans long)
  simp only [Costs.map, Diagrams.undeferred, Branches.map, lo, hi, undeferred, zeros, long]
  rfl

variable [Add α] [Sub α] [Mul α] [Neg α]

namespace Solver

variable {s : Solver α}

omit [Sub α] [Mul α] [Neg α] in
theorem yields_lowerBounds (intact : s.intact = true) (healthy : s.failure ≠ some .lowerBounds)
    {space : Nat} (roomy : space = s.bdds) :
    (lowerBounds space).Yields s s (s.costs.boundsBy s.diagrams.chainOf).toArray := by
  have run_eq : (lowerBounds space).run s =
      ⟨[], s, .ok (s.costs.boundsBy s.diagrams.chainOf).toArray⟩ := by
    simp only [lowerBounds_eq, run_read_bind, checkFailure, if_neg healthy, room, if_pos roomy,
      checkIntact, intact, if_true, run_lift_ok_bind, run_pure]
  exact .of_run run_eq

omit [Sub α] [Mul α] [Neg α] in
theorem yields_lowerBoundsBackward (intact : s.intact = true) (outer : Vector α s.bdds)
    {space : Nat} (roomy : space = s.layers) :
    (lowerBoundsBackward outer.toArray (Vector.replicate s.layers 0).toArray space).Yields s s
      ((s.costs.boundGradient s.diagrams.chainOf outer).map Vector.toArray) := by
  have run_eq : (lowerBoundsBackward outer.toArray (Vector.replicate s.layers 0).toArray space).run
      s = ⟨[], s, .ok ((s.costs.boundGradient s.diagrams.chainOf outer).map Vector.toArray)⟩ := by
    simp only [lowerBoundsBackward_eq, run_read_bind, segment_toArray, room, if_pos roomy,
      checkIntact, intact, if_true, run_lift_ok_bind, run_pure, Branches.map, Costs.boundGradient,
      Vector.toArray_ofFn, get_replicate]
  exact .of_run run_eq

end Solver

namespace Operation

variable {branches : Branches (Array α)} {total : Nat} (sized : branches.Sized total)
  {s : Solver α} {layers bdds : Span} (long : layers.length = s.layers)
  (few : bdds.length = s.bdds) (inside : layers.stop ≤ total)

include sized long inside in
theorem yields_bindUndeferred (intact : s.intact = true) (i : Nat) (context : Context α) :
    (attempt i context (.setCosts (undeferred branches layers))).Yields s
      { s with costs := s.diagrams.undeferred (branches.map layers.slice) } () := by
  rw [← map_toArray_undeferred sized long inside]
  exact yields_attempt i context (Solver.yields_setCosts intact _)

include sized long few inside

theorem result_lowerBoundsOne (intact : s.intact = true)
    (healthy : s.failure ≠ some .lowerBounds) (i : Nat) :
    ((lowerBoundsOne branches i layers bdds).run s).result =
      .ok ((s.diagrams.undeferred (branches.map layers.slice)).boundsBy
        s.diagrams.chainOf).toArray := by
  let bound : Solver α :=
    { s with costs := s.diagrams.undeferred (branches.map layers.slice) }
  let context : Context α := .segments [(.layer, layers), (.bdd, bdds)]
  have binding := yields_bindUndeferred sized long inside intact i context
  have asking : (attempt i context (.lowerBounds bdds.length)).Yields bound bound
      (bound.costs.boundsBy bound.diagrams.chainOf).toArray :=
    yields_attempt i context (Solver.yields_lowerBounds (s := bound) intact healthy few)
  exact ((Yields.log _ s).bind (binding.bind asking)).result

omit few in
theorem result_lowerBoundsOneBackward (intact : s.intact = true) {outer : Array α}
    (given : (bdds.slice outer).size = s.bdds) (i : Nat) :
    ((lowerBoundsOneBackward branches outer i layers bdds).run s).result =
      .ok (((s.diagrams.undeferred (branches.map layers.slice)).boundGradient s.diagrams.chainOf
        (fit s.bdds (bdds.slice outer))).map Vector.toArray) := by
  let bound : Solver α :=
    { s with costs := s.diagrams.undeferred (branches.map layers.slice) }
  let context : Context α := .segments [(.layer, layers), (.bdd, bdds)]
  let gradient := fit s.bdds (bdds.slice outer)
  have binding := yields_bindUndeferred sized long inside intact i context
  have asking : (attempt i context (.gradLowerBounds gradient.toArray
      (Vector.replicate s.layers 0).toArray layers.length)).Yields bound bound
      ((bound.costs.boundGradient bound.diagrams.chainOf gradient).map Vector.toArray) :=
    yields_attempt i context (Solver.yields_lowerBoundsBackward (s := bound) intact gradient long)
  rw [toArray_fit given, ← zeros_eq long] at asking
  exact (binding.bind asking).result

end Operation

variable {b : Batch (Solver α)}

namespace Operation

/-- The costs of the solver at a position. -/
def costsAt (b : Batch (Solver α)) (branches : Branches (Array α)) (i : Fin b.members.length) :
    Costs (Vector α (b.solverAt i).layers) :=
  (b.solverAt i).diagrams.undeferred (branches.map (b.placeAt i .layer).slice)

/-- The bounds of the diagrams of the solver at a position. -/
def boundsAt (b : Batch (Solver α)) (branches : Branches (Array α)) (i : Fin b.members.length) :
    Vector α (b.solverAt i).bdds :=
  (costsAt b branches i).boundsBy (b.solverAt i).diagrams.chainOf

/-- The gradient of the costs of the solver at a position. -/
def gradientAt (b : Batch (Solver α)) (branches : Branches (Array α)) (outer : Array α)
    (i : Fin b.members.length) : Branches (Vector α (b.solverAt i).layers) :=
  (costsAt b branches i).boundGradient (b.solverAt i).diagrams.chainOf
    (fit (b.solverAt i).bdds ((b.placeAt i .bdd).slice outer))

/-- The bounds of all diagrams in a batch. -/
def bounds (b : Batch (Solver α)) (branches : Branches (Array α)) : Array α :=
  joined (List.ofFn fun i => (boundsAt b branches i).toArray)

/-- The gradient of all costs in a batch. -/
def gradient (b : Batch (Solver α)) (branches : Branches (Array α)) (outer : Array α) :
    Branches (Array α) :=
  joinBranches (List.ofFn fun i => (gradientAt b branches outer i).map Vector.toArray)

variable {branches : Branches (Array α)}

theorem size_bounds (able : b.Able .lowerBounds) :
    (bounds b branches).size = b.total .bdd :=
  (size_joined_toArray able.stable.length_bdds (boundsAt b branches)).trans
    (b.total_eq_sum .bdd).symm

theorem sized_gradient (able : b.Able .lowerBounds) (outer : Array α) :
    (gradient b branches outer).Sized (b.total .layer) := by
  rw [total_eq_sum]
  exact sized_joinBranches_ofFn able.stable.length_layers (gradientAt b branches outer)

theorem lowerBounds_of_able (able : b.Able .lowerBounds)
    (sized : branches.Sized (Sizes.total .layer b.sizes)) :
    ((lowerBounds (branches.map .ofArray)).run b).result =
      .ok (bounds b branches, ⟨branches, b.sizes⟩) := by
  refine (Call.lowerBounds branches).result_perform sized trivial able.stable (fun i => ?_) rfl
  exact result_lowerBoundsOne sized (able.stable.length_layers i)
    (able.stable.length_bdds i) (stop_placeAt_le i .layer) (able.intact i)
    (able.healthy i) i

theorem lowerBoundsBackward_of_finite (able : b.Able .lowerBounds)
    (sized : branches.Sized (Sizes.total .layer b.sizes)) {outer : Array α}
    (given : outer.size = Sizes.total .bdd b.sizes)
    (lo : FiniteEntries (gradient b branches outer).lo)
    (hi : FiniteEntries (gradient b branches outer).hi) :
    ((lowerBoundsBackward ⟨branches, b.sizes⟩
        ⟨none, none, none, none, some (.ofArray outer)⟩).run b).result =
      .ok (gradient b branches outer) := by
  let call := Call.lowerBoundsBackward ⟨branches, b.sizes⟩ ⟨none, none, none, none, some outer⟩
  have fits : call.Fits b.sizes := by
    refine ⟨rfl, sized, ?_⟩
    constructor
    all_goals simp [given]
  have finite : ∀ named ∈ [("grad_lo_costs", Segmentation.layer, (gradient b branches outer).lo),
      ("grad_hi_costs", .layer, (gradient b branches outer).hi)], FiniteEntries named.2.2 := by
    simpa using ⟨lo, hi⟩
  refine call.result_perform fits trivial able.stable (fun i => ?_)
    (Call.finish_eq_ok_iff.mpr ⟨finite, rfl⟩)
  have part_size := (Span.size_slice _ outer
    ((stop_placeAt_le i .bdd).trans_eq given.symm)).trans (able.stable.length_bdds i)
  exact result_lowerBoundsOneBackward sized (able.stable.length_layers i)
    (stop_placeAt_le i .layer) (able.intact i) part_size i

theorem lowerBoundsBackward_of_able [AllFinite α] (able : b.Able .lowerBounds)
    (sized : branches.Sized (Sizes.total .layer b.sizes)) {outer : Array α}
    (given : outer.size = Sizes.total .bdd b.sizes) :
    ((lowerBoundsBackward ⟨branches, b.sizes⟩
        ⟨none, none, none, none, some (.ofArray outer)⟩).run b).result =
      .ok (gradient b branches outer) :=
  lowerBoundsBackward_of_finite able sized given (fun _ _ => AllFinite.isFinite _)
    fun _ _ => AllFinite.isFinite _

theorem able_of_lowerBoundsOne {s : Solver α} {i : Nat} {layers bdds : Span} {part : Array α}
    (ok : ((lowerBoundsOne branches i layers bdds).run s).result = .ok part) :
    s.intact = true ∧ s.failure ≠ some .lowerBounds := by
  rw [lowerBoundsOne, consult, (Yields.log _ s).result_bind] at ok
  obtain ⟨intact, bound, kept, told⟩ := exists_bound ok
  exact ⟨intact, kept ▸ Solver.healthy_of_serve rfl (result_attempt_eq_ok_iff.mp told)⟩

/-- Solvers that told bounds were able to, and these were the bounds. -/
theorem able_of_lowerBounds {branches : Branches (Buffer α)}
    {answer : Array α × Saved (Branches (Array α))}
    (ok : ((lowerBounds branches).run b).result = .ok answer) :
    b.Able .lowerBounds ∧ (branches.map Buffer.elements).Sized (Sizes.total .layer b.sizes) ∧
      answer = (bounds b (branches.map Buffer.elements),
        ⟨branches.map Buffer.elements, b.sizes⟩) := by
  obtain ⟨stable, sized⟩ := accepted_of_ok (screens_lowerBounds b branches)
    (decides_branches b branches) ok
  obtain ⟨_, dense, -⟩ := result_lift_bind_eq_ok_iff.mp ok
  obtain rfl := elements_of_denseBranches dense
  have same : (lowerBounds branches : Work α (Solver α) _) =
      lowerBounds ((branches.map Buffer.elements).map .ofArray) := by
    rw [lowerBounds, lowerBounds, dense, denseBranches_ofArray sized]
  rw [same] at ok
  have each (i : Fin b.members.length) :
      (b.solverAt i).intact = true ∧ (b.solverAt i).failure ≠ some .lowerBounds := by
    let call := Call.lowerBounds (branches.map Buffer.elements)
    obtain ⟨_, answered⟩ := call.exists_part sized trivial stable ok i
    exact able_of_lowerBoundsOne answered
  have able : b.Able .lowerBounds := ⟨stable, fun i => (each i).1, fun i => (each i).2⟩
  exact ⟨able, sized, Except.ok.inj (ok.symm.trans (lowerBounds_of_able able sized))⟩

end Operation

end Answers

end DualAscent
