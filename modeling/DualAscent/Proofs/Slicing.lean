import DualAscent.Operation.Ascend
import DualAscent.Operation.Extract
import DualAscent.Operation.LowerBounds
import DualAscent.Operation.MinMarginals
import DualAscent.Operation.Perturb
import DualAscent.Operation.Redistribute
import DualAscent.Proofs.Sized

/-!
# Slicing on record

What the operations have a solver do is made of slices of flat arrays: segments of inputs and of
incoming gradients, and room in outputs.  Here it is put together once more, and every cut goes on
record with the length of the array; without the record it is what the operations do.  What is done
with the slices does not see the arrays any more, so that no cut is missing.
-/

namespace DualAscent

variable {α β γ σ : Type}

/-- The range lies in arrays of this length. -/
structure Span.Within (span : Span) (length : Nat) : Prop where
  ordered : span.start ≤ span.stop
  bounded : span.stop ≤ length

/-- A range that is cut out of an array of some length. -/
structure Cut where
  /-- The range. -/
  span : Span
  /-- The length of the array. -/
  length : Nat

/-- Something made of slices, with the cuts it took. -/
structure Sliced (β : Type) where
  /-- What is made. -/
  value : β
  /-- The cuts. -/
  cuts : List Cut

namespace Sliced

instance : Monad Sliced where
  pure value := ⟨value, []⟩
  bind sliced next := ⟨(next sliced.value).value, sliced.cuts ++ (next sliced.value).cuts⟩

/-- No cut is out of range. -/
def Inside (sliced : Sliced β) : Prop := ∀ cut ∈ sliced.cuts, cut.span.Within cut.length

namespace Inside

theorem pure (value : β) : Inside (pure value : Sliced β) := nofun

theorem bind {sliced : Sliced β} {next : β → Sliced γ} (first : sliced.Inside)
    (rest : ∀ value, (next value).Inside) : (sliced >>= next).Inside :=
  List.forall_mem_append.mpr ⟨first, rest _⟩

theorem map {sliced : Sliced β} (f : β → γ) (inside : sliced.Inside) : (f <$> sliced).Inside :=
  inside.bind fun _ => pure _

end Inside

end Sliced

namespace Span

variable (span : Span)

/-- A slice of an array. -/
def cut (values : Array β) : Sliced (Array β) := ⟨span.slice values, [⟨span, values.size⟩]⟩

/-- A slice of an array of so many zeros. -/
def cutZeros [Zero α] (length : Nat) : Sliced (Array α) := ⟨Operation.zeros span, [⟨span, length⟩]⟩

/-- Room in an array of this length. -/
def cutRoom (length : Nat) : Sliced Nat := ⟨span.length, [⟨span, length⟩]⟩

variable {span} {length : Nat} (within : span.Within length)

include within

theorem inside_cut {values : Array β} (sized : values.size = length) : (span.cut values).Inside :=
  List.forall_mem_singleton.mpr (sized ▸ within)

theorem inside_cutZeros [Zero α] : (span.cutZeros length : Sliced (Array α)).Inside :=
  List.forall_mem_singleton.mpr within

theorem inside_cutRoom : (span.cutRoom length).Inside := List.forall_mem_singleton.mpr within

end Span

/-- Slices of both arrays. -/
def Branches.cut (span : Span) (branches : Branches (Array β)) : Sliced (Branches (Array β)) := do
  let lo ← span.cut branches.lo
  let hi ← span.cut branches.hi
  return ⟨lo, hi⟩

/-- Slices of all three arrays. -/
def Costs.cut (span : Span) (costs : Costs (Array β)) : Sliced (Costs (Array β)) := do
  let branches ← costs.toBranches.cut span
  let deferred ← span.cut costs.deferred
  return ⟨branches, deferred⟩

/-- A slice of the factors per layer. -/
def Damping.cut (span : Span) : Damping α (Array β) → Sliced (Damping α (Array β))
  | shared value => pure (.shared value)
  | perLayer factors => .perLayer <$> span.cut factors

/-- Slices of all arrays. -/
def Inputs.cut (span : Span) (inputs : Inputs α (Array β)) : Sliced (Inputs α (Array β)) := do
  let costs ← inputs.costs.cut span
  let weights ← span.cut inputs.weights
  let damping ← inputs.damping.cut span
  return ⟨costs, weights, damping⟩

theorem Damping.value_cut (span : Span) (damping : Damping α (Array β)) :
    (damping.cut span).value = damping.map span.slice := by
  cases damping with
  | shared value => rfl
  | perLayer factors => rfl

theorem Inputs.value_cut (span : Span) (inputs : Inputs α (Array β)) :
    (inputs.cut span).value = inputs.map span.slice :=
  congrArg (Inputs.mk (inputs.costs.map span.slice) (span.slice inputs.weights))
    (inputs.damping.value_cut span)

section Sized

variable {span : Span} {length : Nat} (within : span.Within length)

include within

theorem Branches.Sized.inside_cut {branches : Branches (Array β)} (sized : branches.Sized length) :
    (branches.cut span).Inside :=
  .bind (Span.inside_cut within sized.lo) fun _ =>
    .bind (Span.inside_cut within sized.hi) fun _ => .pure _

theorem Costs.Sized.inside_cut {costs : Costs (Array β)} (sized : costs.Sized length) :
    (costs.cut span).Inside :=
  .bind (sized.toSized.inside_cut within) fun _ =>
    .bind (Span.inside_cut within sized.deferred) fun _ => .pure _

theorem Damping.Sized.inside_cut {damping : Damping α (Array α)} (sized : damping.Sized length) :
    (damping.cut span).Inside := by
  cases damping with
  | shared value => exact .pure _
  | perLayer factors => exact .map _ (Span.inside_cut within sized)

theorem Inputs.Sized.inside_cut {inputs : Inputs α (Array α)} (sized : inputs.Sized length) :
    (inputs.cut span).Inside :=
  .bind (sized.costs.inside_cut within) fun _ => .bind (Span.inside_cut within sized.weights)
    fun _ => .bind (sized.damping.inside_cut within) fun _ => .pure _

end Sized

namespace Sliced

open Operation

section Shares

/-- Room for one solver's working costs in outputs of this length. -/
def roomForCosts (span : Span) (length : Nat) : Sliced (Costs Nat) := do
  let lo ← span.cutRoom length
  let hi ← span.cutRoom length
  let deferred ← span.cutRoom length
  return ⟨⟨lo, hi⟩, deferred⟩

/-- Room for both branches in outputs of these lengths. -/
def roomForBranches (span : Span) (lengths : Branches Nat) : Sliced (Branches Nat) := do
  let lo ← span.cutRoom lengths.lo
  let hi ← span.cutRoom lengths.hi
  return ⟨lo, hi⟩

/-- The summary to ask of a solver, with room in outputs of these lengths. -/
def trendRequest (settings : AscentSettings α) (layers bdds : Span) (lengths : Trend Nat) :
    Sliced (Option (TrendRequest α)) :=
  if settings.summarises then do
    let average ← layers.cutRoom lengths.average
    let first ← bdds.cutRoom lengths.first
    let second ← bdds.cutRoom lengths.second
    return some ⟨settings.window, settings.decay, ⟨average, first, second⟩⟩
  else
    return none

/-- One solver's working costs, with slices of so many zeros for the deferred min-marginals. -/
def undeferred [Zero α] (branches : Branches (Array α)) (span : Span) :
    Sliced (Costs (Array α)) := do
  let share ← branches.cut span
  let deferred ← span.cutZeros branches.lo.size
  return ⟨share, deferred⟩

/-- What the gradient of damping factors starts with: slices of zeros, or what is carried on. -/
def dampingGradient [Zero α] (damping : Damping α (Array α)) (span : Span) (carried : α) :
    Sliced (Damping α (Array α)) :=
  match damping with
  | .shared _ => return .shared carried
  | .perLayer factors => .perLayer <$> span.cutZeros factors.size

theorem value_trendRequest (settings : AscentSettings α) (layers bdds : Span)
    (lengths : Trend Nat) :
    (trendRequest settings layers bdds lengths).value =
      Operation.trendRequest settings layers bdds := by
  rw [trendRequest, Operation.trendRequest]
  split
  · rfl
  · rfl

end Shares

variable [Zero α] [Engine α σ]

/-- The part of a solver in a dual ascent, which has summaries of so many diagrams. -/
def ascendOne (inputs : Inputs α (Array α)) (settings : AscentSettings α) (bdds : Nat) (i : Nat)
    (layers chains : Span) :
    Sliced (Procedure (Event α) σ (Error α) (Realized α × Costs (Array α))) := do
  let length := inputs.costs.lo.size
  let share ← inputs.cut layers
  let trend ← trendRequest settings layers chains ⟨length, bdds, bdds⟩
  let room ← roomForCosts layers length
  return ascendWith settings i layers share trend room

/-- The part of a solver when a gradient is sent back through a dual ascent. -/
def descendOne (record : AscentRecord α) (outer : Costs (Array α)) (i : Nat) (layers : Span)
    (window : ReplayWindow) (carried : α) :
    Sliced (Procedure (Event α) σ (Error α) (α × Inputs α (Array α))) := do
  let share ← record.inputs.cut layers
  let gradient ← outer.cut layers
  let ofWeights ← layers.cutZeros record.inputs.costs.lo.size
  let ofDamping ← dampingGradient record.inputs.damping layers carried
  return descendWith record.caches i layers window carried share ⟨gradient, ofWeights, ofDamping⟩

/-- The part of a solver in a redistribution. -/
def redistributeOne (costs : Costs (Array α)) (i : Nat) (layers : Span) :
    Sliced (Procedure (Event α) σ (Error α) (Costs (Array α))) := do
  let share ← costs.cut layers
  let room ← roomForCosts layers costs.lo.size
  return redistributeWith i layers share room

/-- The part of a solver when a gradient is sent back through a redistribution. -/
def redistributeOneBackward (costs : Costs (Array α)) (outer : Branches (Array α)) (i : Nat)
    (layers : Span) : Sliced (Procedure (Event α) σ (Error α) (Array α)) := do
  let share ← costs.cut layers
  let gradient ← outer.cut layers
  let room ← layers.cutRoom costs.lo.size
  return ask i (.segments [(.layer, layers)]) share (.gradDistributeDelta gradient room)

/-- The part of a solver in min-marginal differences. -/
def minMarginalsOne (branches : Branches (Array α)) (i : Nat) (layers : Span) :
    Sliced (Procedure (Event α) σ (Error α) (Array α)) := do
  let share ← undeferred branches layers
  let room ← layers.cutRoom branches.lo.size
  return consult .minMarginals i [(.layer, layers)] share (.minMarginals room)

/-- The part of a solver when a gradient is sent back through min-marginal differences. -/
def minMarginalsOneBackward (branches : Branches (Array α)) (outer : Array α) (i : Nat)
    (layers : Span) : Sliced (Procedure (Event α) σ (Error α) (Branches (Array α))) := do
  let share ← undeferred branches layers
  let gradient ← layers.cut outer
  let room ← roomForBranches layers ⟨branches.lo.size, branches.lo.size⟩
  return ask i (.segments [(.layer, layers)]) share (.gradMinMarginals gradient room)

/-- The part of a solver in a perturbation. -/
def perturbOne (inputs : Perturbed (Array α)) (i : Nat) (layers slots : Span) :
    Sliced (Procedure (Event α) σ (Error α) (Branches (Array α))) := do
  let share ← undeferred inputs.costs layers
  let change ← inputs.change.cut slots
  let room ← roomForCosts layers inputs.costs.lo.size
  return perturbWith i layers slots share change room

/-- The part of a solver when a gradient is sent back through a perturbation. -/
def perturbOneBackward (inputs : Perturbed (Array α)) (outer : Branches (Array α)) (i : Nat)
    (layers slots : Span) : Sliced (Procedure (Event α) σ (Error α) (Branches (Array α))) := do
  let share ← undeferred inputs.costs layers
  let gradient ← outer.cut layers
  let room ← roomForBranches slots ⟨inputs.change.lo.size, inputs.change.hi.size⟩
  return ask i (.segments [(.layer, layers), (.slot, slots)]) share (.gradPerturb gradient room)

/-- The part of a solver in lower bounds of so many diagrams. -/
def lowerBoundsOne (branches : Branches (Array α)) (bdds : Nat) (i : Nat)
    (layers chains : Span) : Sliced (Procedure (Event α) σ (Error α) (Array α)) := do
  let share ← undeferred branches layers
  let room ← chains.cutRoom bdds
  return consult .bounds i [(.layer, layers), (.bdd, chains)] share (.lowerBounds room)

/-- The part of a solver when a gradient is sent back through lower bounds. -/
def lowerBoundsOneBackward (branches : Branches (Array α)) (outer : Array α) (i : Nat)
    (layers chains : Span) :
    Sliced (Procedure (Event α) σ (Error α) (Branches (Array α))) := do
  let length := branches.lo.size
  let share ← undeferred branches layers
  let gradient ← chains.cut outer
  let low ← layers.cutZeros length
  let room ← layers.cutRoom length
  return ask i (.segments [(.layer, layers), (.bdd, chains)]) share
    (.gradLowerBounds gradient low room)

/-- The part of a solver in primal rounding. -/
def roundOne (costs : Costs (Array α)) (settings : RoundingSettings α) (i : Nat) (layers : Span) :
    Sliced (Procedure (Event α) σ (Error α) (Rounding α)) := do
  let share ← costs.cut layers
  return roundWith settings i layers share

/-- The part of a solver in branch choices. -/
def solutionOne (branches : Branches (Array α)) (i : Nat) (layers : Span) :
    Sliced (Procedure (Event α) σ (Error α) (Array α)) := do
  let share ← undeferred branches layers
  let room ← layers.cutRoom branches.lo.size
  return ask i (.segments [(.layer, layers)]) share (.solution room)

theorem value_ascendOne (inputs : Inputs α (Array α)) (settings : AscentSettings α) (bdds i : Nat)
    (layers chains : Span) :
    (ascendOne inputs settings bdds i layers chains :
        Sliced (Procedure (Event α) σ (Error α) _)).value =
      Operation.ascendOne inputs settings i layers chains := by
  rw [Operation.ascendOne, ← Inputs.value_cut,
    ← value_trendRequest settings layers chains ⟨inputs.costs.lo.size, bdds, bdds⟩]
  rfl

theorem value_descendOne (record : AscentRecord α) (outer : Costs (Array α)) (i : Nat)
    (layers : Span) (window : ReplayWindow) (carried : α) :
    (descendOne record outer i layers window carried :
        Sliced (Procedure (Event α) σ (Error α) _)).value =
      Operation.descendOne record outer i layers window carried := by
  obtain ⟨⟨⟨costs, weights, damping⟩, sizes⟩, realized, tracked, caches⟩ := record
  cases damping with
  | shared value => rfl
  | perLayer factors => rfl

section Inside

variable {layers chains slots : Span} {total bdds totalSlots : Nat} (layered : layers.Within total)

include layered

omit [Engine α σ] in
theorem inside_undeferred {branches : Branches (Array α)} (sized : branches.Sized total) :
    (undeferred branches layers).Inside := by
  obtain rfl := sized.lo
  exact .bind (sized.inside_cut layered) fun _ =>
    .bind (Span.inside_cutZeros layered) fun _ => .pure _

theorem inside_roomForCosts : (roomForCosts layers total).Inside :=
  .bind (Span.inside_cutRoom layered) fun _ => .bind (Span.inside_cutRoom layered) fun _ =>
    .bind (Span.inside_cutRoom layered) fun _ => .pure _

theorem inside_roomForBranches : (roomForBranches layers ⟨total, total⟩).Inside :=
  .bind (Span.inside_cutRoom layered) fun _ => .bind (Span.inside_cutRoom layered) fun _ => .pure _

omit [Zero α] [Engine α σ] in
theorem inside_trendRequest (settings : AscentSettings α) (chained : chains.Within bdds) :
    (trendRequest settings layers chains ⟨total, bdds, bdds⟩).Inside := by
  rw [trendRequest]
  split
  · exact .bind (Span.inside_cutRoom layered) fun _ => .bind (Span.inside_cutRoom chained)
      fun _ => .bind (Span.inside_cutRoom chained) fun _ => .pure _
  · exact .pure _

omit [Engine α σ] in
theorem inside_dampingGradient {damping : Damping α (Array α)} (sized : damping.Sized total)
    (carried : α) : (dampingGradient damping layers carried).Inside := by
  cases damping with
  | shared value => exact .pure _
  | perLayer factors =>
      obtain rfl : factors.size = total := sized
      exact .map _ (Span.inside_cutZeros layered)

theorem inside_ascendOne {inputs : Inputs α (Array α)} (sized : inputs.Sized total)
    (chained : chains.Within bdds) (settings : AscentSettings α) (i : Nat) :
    (ascendOne inputs settings bdds i layers chains : Sliced (Procedure _ σ _ _)).Inside := by
  obtain rfl := sized.costs.lo
  exact .bind (sized.inside_cut layered) fun _ =>
    .bind (inside_trendRequest layered settings chained) fun _ =>
      .bind (inside_roomForCosts layered) fun _ => .pure _

theorem inside_descendOne {record : AscentRecord α} (sized : record.inputs.Sized total)
    {outer : Costs (Array α)} (given : outer.Sized total) (i : Nat) (window : ReplayWindow)
    (carried : α) :
    (descendOne record outer i layers window carried : Sliced (Procedure _ σ _ _)).Inside := by
  obtain rfl := sized.costs.lo
  exact .bind (sized.inside_cut layered) fun _ => .bind (given.inside_cut layered) fun _ =>
    .bind (Span.inside_cutZeros layered) fun _ =>
      .bind (inside_dampingGradient layered sized.damping carried) fun _ => .pure _

theorem inside_redistributeOne {costs : Costs (Array α)} (sized : costs.Sized total) (i : Nat) :
    (redistributeOne costs i layers : Sliced (Procedure _ σ _ _)).Inside := by
  obtain rfl := sized.lo
  exact .bind (sized.inside_cut layered) fun _ => .bind (inside_roomForCosts layered) fun _ =>
    .pure _

theorem inside_redistributeOneBackward {costs : Costs (Array α)} (sized : costs.Sized total)
    {outer : Branches (Array α)} (given : outer.Sized total) (i : Nat) :
    (redistributeOneBackward costs outer i layers : Sliced (Procedure _ σ _ _)).Inside := by
  obtain rfl := sized.lo
  exact .bind (sized.inside_cut layered) fun _ => .bind (given.inside_cut layered) fun _ =>
    .bind (Span.inside_cutRoom layered) fun _ => .pure _

theorem inside_minMarginalsOne {branches : Branches (Array α)} (sized : branches.Sized total)
    (i : Nat) : (minMarginalsOne branches i layers : Sliced (Procedure _ σ _ _)).Inside := by
  obtain rfl := sized.lo
  exact .bind (inside_undeferred layered sized) fun _ => .bind (Span.inside_cutRoom layered)
    fun _ => .pure _

theorem inside_minMarginalsOneBackward {branches : Branches (Array α)}
    (sized : branches.Sized total) {outer : Array α} (given : outer.size = total) (i : Nat) :
    (minMarginalsOneBackward branches outer i layers : Sliced (Procedure _ σ _ _)).Inside := by
  obtain rfl := sized.lo
  exact .bind (inside_undeferred layered sized) fun _ => .bind (Span.inside_cut layered given)
    fun _ => .bind (inside_roomForBranches layered) fun _ => .pure _

theorem inside_perturbOne {inputs : Perturbed (Array α)} (sized : inputs.costs.Sized total)
    (slotted : slots.Within totalSlots) (wide : inputs.change.Sized totalSlots) (i : Nat) :
    (perturbOne inputs i layers slots : Sliced (Procedure _ σ _ _)).Inside := by
  obtain rfl := sized.lo
  exact .bind (inside_undeferred layered sized) fun _ => .bind (wide.inside_cut slotted) fun _ =>
    .bind (inside_roomForCosts layered) fun _ => .pure _

theorem inside_perturbOneBackward {inputs : Perturbed (Array α)}
    (sized : inputs.costs.Sized total) (slotted : slots.Within totalSlots)
    (wide : inputs.change.Sized totalSlots) {outer : Branches (Array α)}
    (given : outer.Sized total) (i : Nat) :
    (perturbOneBackward inputs outer i layers slots : Sliced (Procedure _ σ _ _)).Inside := by
  rw [perturbOneBackward, wide.lo, wide.hi]
  exact .bind (inside_undeferred layered sized) fun _ => .bind (given.inside_cut layered) fun _ =>
    .bind (inside_roomForBranches slotted) fun _ => .pure _

theorem inside_lowerBoundsOne {branches : Branches (Array α)} (sized : branches.Sized total)
    (chained : chains.Within bdds) (i : Nat) :
    (lowerBoundsOne branches bdds i layers chains : Sliced (Procedure _ σ _ _)).Inside :=
  .bind (inside_undeferred layered sized) fun _ => .bind (Span.inside_cutRoom chained) fun _ =>
    .pure _

theorem inside_lowerBoundsOneBackward {branches : Branches (Array α)}
    (sized : branches.Sized total) (chained : chains.Within bdds) {outer : Array α}
    (given : outer.size = bdds) (i : Nat) :
    (lowerBoundsOneBackward branches outer i layers chains :
      Sliced (Procedure _ σ _ _)).Inside := by
  obtain rfl := sized.lo
  exact .bind (inside_undeferred layered sized) fun _ => .bind (Span.inside_cut chained given)
    fun _ => .bind (Span.inside_cutZeros layered) fun _ => .bind (Span.inside_cutRoom layered)
      fun _ => .pure _

theorem inside_roundOne {costs : Costs (Array α)} (sized : costs.Sized total)
    (settings : RoundingSettings α) (i : Nat) :
    (roundOne costs settings i layers : Sliced (Procedure _ σ _ _)).Inside :=
  .bind (sized.inside_cut layered) fun _ => .pure _

theorem inside_solutionOne {branches : Branches (Array α)} (sized : branches.Sized total)
    (i : Nat) : (solutionOne branches i layers : Sliced (Procedure _ σ _ _)).Inside := by
  obtain rfl := sized.lo
  exact .bind (inside_undeferred layered sized) fun _ => .bind (Span.inside_cutRoom layered)
    fun _ => .pure _

end Inside

end Sliced

end DualAscent
