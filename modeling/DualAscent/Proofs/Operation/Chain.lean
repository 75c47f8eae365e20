import DualAscent.Proofs.Operation.Descent

/-!
# Ascents in a row

An ascent can be made in two blocks, the later one from where the earlier one arrives.  If nothing
cuts the runs short, the two blocks arrive at the same costs as one over all steps, and their
backward passes, the later one first, return the same gradient of the costs.  In exact arithmetic
their gradients of weights and damping add up to those of the one block.
-/

namespace DualAscent

open Procedure Batch Operation

variable {α : Type}

theorem joined_mapIdx_add {ι : Type} [Add α] (all : List ι) {u v w : Nat → ι → Array α}
    (aligned : ∀ i a, all[i]? = some a → (u i a).size = (v i a).size)
    (adds : ∀ i a, all[i]? = some a → w i a = Array.zipWith (· + ·) (u i a) (v i a)) :
    joined (all.mapIdx w) =
      Array.zipWith (· + ·) (joined (all.mapIdx u)) (joined (all.mapIdx v)) := by
  induction all generalizing u v w with
  | nil => simp [joined]
  | cons a all ih =>
      have rest := ih (fun i a found => aligned (i + 1) a found)
        (fun i a found => adds (i + 1) a found)
      rw [List.mapIdx_cons, List.mapIdx_cons, List.mapIdx_cons, joined, joined, joined,
        List.foldr_cons, List.foldr_cons, List.foldr_cons,
        Array.zipWith_append (aligned 0 a rfl), ← adds 0 a rfl]
      exact congrArg (w 0 a ++ ·) rest

section Damping

variable [Add α] {n : Nat} {damping other : Damping α (Vector α n)}

theorem Damping.getD_plus (matched : damping.Matches other) (first second : α) :
    (damping.plus other).shared?.getD (first + second) =
      damping.shared?.getD first + other.shared?.getD second := by
  cases damping with
  | shared value =>
      obtain ⟨value', rfl⟩ := matched.of_shared
      rfl
  | perLayer values =>
      obtain ⟨values', rfl⟩ := matched.of_perLayer
      rfl

theorem Damping.toArray_plus (matched : damping.Matches other) :
    ((damping.plus other).map Vector.toArray).toArray =
      Array.zipWith (· + ·) (damping.map Vector.toArray).toArray
        (other.map Vector.toArray).toArray := by
  cases damping with
  | shared value =>
      obtain ⟨value', rfl⟩ := matched.of_shared
      simp [plus, map, toArray]
  | perLayer values =>
      obtain ⟨values', rfl⟩ := matched.of_perLayer
      exact Vector.toArray_zipWith

end Damping

namespace Descent

section Costs

variable [Zero α] [Add α] [Sub α] [Mul α] [Neg α] {all : List Diagrams}
  {inputs : Inputs α (Array α)} {j k : Nat} {outer : Costs (Array α)}
  (whole : Descent all inputs (j + k) outer)
  (later : Descent all (inputs.resume (Diagrams.climbs all inputs j)) k outer)
  (earlier : Descent all inputs j later.gradient.costs)

theorem part_later {i : Nat} {d : Diagrams} (found : all[i]? = some d) :
    later.part i d = d.descendLater (inputs.map (Diagrams.span all i d).slice) j k
      (outer.map (Diagrams.span all i d).slice) (later.carried i) := by
  rw [part, Diagrams.descendAt, Diagrams.map_resume_climbs found]
  rfl

theorem part_earlier {i : Nat} {d : Diagrams} (found : all[i]? = some d) :
    earlier.part i d = d.descend (inputs.map (Diagrams.span all i d).slice) j
      ((d.descendLater (inputs.map (Diagrams.span all i d).slice) j k
        (outer.map (Diagrams.span all i d).slice) (later.carried i)).costs.map Vector.toArray)
      (earlier.carried i) := by
  have handed : later.gradient.costs.map (Diagrams.span all i d).slice =
      (later.part i d).costs.map Vector.toArray := by
    rw [later.costs_gradient, Diagrams.slice_flatCosts all _ found]
  rw [later.part_later found] at handed
  exact congrArg (d.descend _ j · (earlier.carried i)) handed

theorem matches_earlier (i : Nat) (d : Diagrams) :
    (earlier.part i d).damping.Matches (later.part i d).damping :=
  (earlier.matches_part i d).trans (later.matches_part i d).symm

/-- The gradient of the costs is handed from the later block to the earlier one. -/
theorem costs_earlier : earlier.gradient.costs = whole.gradient.costs := by
  rw [earlier.costs_gradient, whole.costs_gradient]
  refine Diagrams.flatCosts_congr fun i d found => ?_
  rw [later.part_earlier earlier found]
  exact (d.costs_descend_add _ j k _ _ _ _).symm

end Costs

section Exact

variable [CommRing α] {all : List Diagrams} {inputs : Inputs α (Array α)} {j k : Nat}
  {outer : Costs (Array α)} (whole : Descent all inputs (j + k) outer)
  (later : Descent all (inputs.resume (Diagrams.climbs all inputs j)) k outer)
  (earlier : Descent all inputs j later.gradient.costs)

theorem part_whole {i : Nat} {d : Diagrams} (found : all[i]? = some d)
    (adds : whole.carried i = earlier.carried i + later.carried i) :
    whole.part i d = (earlier.part i d).gain (later.part i d) := by
  rw [later.part_earlier earlier found, later.part_later found, part, adds]
  exact d.descend_eq_gain _ j k _ _ _

/-- What is carried through both blocks adds up to what is carried through the whole. -/
theorem carried_whole (i : Nat) (within : i ≤ all.length) :
    whole.carried i = earlier.carried i + later.carried i := by
  induction i with
  | zero => rw [whole.start, earlier.start, later.start, add_zero]
  | succ i ih =>
      have found := List.getElem?_eq_getElem (Nat.lt_of_succ_le within)
      have adds := ih (Nat.le_of_succ_le within)
      have gained : Diagrams.descendAt all inputs (j + k) outer (whole.carried i) i _ = _ :=
        whole.part_whole later earlier found adds
      rw [whole.next i _ found, earlier.next i _ found, later.next i _ found, gained, adds]
      exact Damping.getD_plus (matches_earlier later earlier i _) _ _

/-- So do all gradients of one kind that solvers add up on their own. -/
theorem joined_parts {f : Inputs α (Array α) → Array α}
    (aligned : ∀ i d, (f ((earlier.part i d).map Vector.toArray)).size =
      (f ((later.part i d).map Vector.toArray)).size)
    (adds : ∀ i d, f (((earlier.part i d).gain (later.part i d)).map Vector.toArray) =
      Array.zipWith (· + ·) (f ((earlier.part i d).map Vector.toArray))
        (f ((later.part i d).map Vector.toArray))) :
    joined (whole.parts.map f) =
      Array.zipWith (· + ·) (joined (earlier.parts.map f)) (joined (later.parts.map f)) := by
  rw [parts, parts, parts, map_mapIdx, map_mapIdx, map_mapIdx]
  refine joined_mapIdx_add all (fun i d _ => aligned i d) fun i d found => ?_
  have within := Nat.le_of_lt (List.getElem?_eq_some_iff.mp found).1
  rw [whole.part_whole later earlier found (whole.carried_whole later earlier i within), adds]

theorem weights_whole :
    whole.gradient.weights =
      Array.zipWith (· + ·) earlier.gradient.weights later.gradient.weights := by
  refine whole.joined_parts later earlier (fun i d => ?_) fun i d => ?_
  · rw [Inputs.map, Inputs.map, Vector.size_toArray, Vector.size_toArray]
  · exact Vector.toArray_zipWith

theorem damping_whole :
    whole.gradient.damping.toArray =
      Array.zipWith (· + ·) earlier.gradient.damping.toArray later.gradient.damping.toArray := by
  have kept : (inputs.resume (Diagrams.climbs all inputs j)).damping = inputs.damping := rfl
  cases kind : inputs.damping with
  | shared value =>
      have total := whole.carried_whole later earlier all.length (Nat.le_refl _)
      simp only [gradient, kept, kind, Damping.toArray, total]
      simp
  | perLayer factors =>
      have layered : ∀ {n : Nat} {g : Inputs α (Vector α n)},
          g.damping.Matches inputs.damping → (g.map Vector.toArray).damping.toArray.size = n := by
        intro n g matched
        rw [kind] at matched
        exact Damping.Sized.size_toArray g.sized_toArray.damping
          ((Damping.matches_map _ _).symm.trans matched)
      simp only [gradient, kept, kind, Damping.toArray]
      refine whole.joined_parts later earlier (fun i d => ?_) fun i d => ?_
      · exact (layered (earlier.matches_part i d)).trans (layered (later.matches_part i d)).symm
      · exact Damping.toArray_plus (matches_earlier later earlier i d)

end Exact

end Descent

/-- A part of an ascent that one call makes, with gradients through all its steps. -/
structure Block where
  /-- Steps. -/
  steps : Nat
  /-- Most trailing steps that carry gradients. -/
  tracked : Nat
  /-- Most states kept at once for the reverse sweep. -/
  caches : Nat
  covered : steps ≤ tracked

/-- The settings for one block. -/
def AscentSettings.over (settings : AscentSettings α) (block : Block) : AscentSettings α :=
  { settings with
    iterations := block.steps
    tracked := block.tracked
    caches := block.caches }

namespace Operation

/-- Gradients of costs as those of the outputs that the costs were. -/
def handedBack (gradient : Costs (Array α)) : OutputGradients α where
  lo := some (.ofArray gradient.lo)
  hi := some (.ofArray gradient.hi)
  deferred := some (.ofArray gradient.deferred)
  average := none
  values := none

section Generic

variable [Scalar α] [Zero α] [Add α] [Sub α] [Mul α] [Neg α]

/-- An ascent, and a further one from the costs that it arrives at. -/
def ascendTwice (inputs : Inputs α (Buffer α)) (first second : AscentSettings α) :
    Work α (Solver α) ((Ascended α × AscentRecord α) × Ascended α × AscentRecord α) := do
  let before ← ascend inputs first
  let after ← ascend (inputs.resume (before.1.costs.map .ofArray)) second
  return (before, after)

/-- An ascent and its backward pass. -/
def roundTrip (inputs : Inputs α (Buffer α)) (settings : AscentSettings α)
    (gradients : OutputGradients α) : Work α (Solver α) (Inputs α (Array α)) := do
  let (_, record) ← ascend inputs settings
  ascendBackward record gradients

/-- Two ascents in a row and their backward passes, the later one first.  The gradient of the costs
between them is handed from the one to the other. -/
def roundTripTwice (inputs : Inputs α (Buffer α)) (first second : AscentSettings α)
    (gradients : OutputGradients α) :
    Work α (Solver α) (Inputs α (Array α) × Inputs α (Array α)) := do
  let (before, after) ← ascendTwice inputs first second
  let later ← ascendBackward after.2 gradients
  let earlier ← ascendBackward before.2 (handedBack later.costs)
  return (earlier, later)

variable {b : Batch (Solver α)} {inputs : Inputs α (Buffer α)} {values : Inputs α (Array α)}
  {settings : AscentSettings α} {first second whole : Block}

omit [Zero α] [Add α] [Sub α] [Mul α] [Neg α] in
theorem denseInputs_resume (dense : denseInputs inputs = .ok values) {costs : Costs (Array α)}
    (sized : costs.Sized values.costs.lo.size) :
    denseInputs (inputs.resume (costs.map .ofArray)) = .ok (values.resume costs) := by
  obtain ⟨before, -, rest⟩ := bind_eq_ok_iff.mp dense
  obtain ⟨weights, weighed, rest⟩ := bind_eq_ok_iff.mp rest
  obtain ⟨_, -, rest⟩ := bind_eq_ok_iff.mp rest
  obtain ⟨_, fits, rest⟩ := bind_eq_ok_iff.mp rest
  obtain ⟨damping, damped, same⟩ := bind_eq_ok_iff.mp rest
  cases same
  have length_eq : costs.lo.size = before.lo.size := sized.lo
  refine bind_eq_ok_iff.mpr ⟨costs, Costs.dense_ofArray costs, ?_⟩
  refine bind_eq_ok_iff.mpr ⟨weights, weighed, ?_⟩
  refine bind_eq_ok_iff.mpr ⟨(), Costs.requireAligned_of_sized sized, ?_⟩
  refine bind_eq_ok_iff.mpr ⟨(), length_eq ▸ fits, ?_⟩
  exact bind_eq_ok_iff.mpr ⟨damping, length_eq ▸ damped, rfl⟩

omit [Add α] [Sub α] [Mul α] [Neg α] in
theorem incoming_handedBack {gradient : Costs (Array α)} {length : Nat}
    (sized : gradient.Sized length) : Incoming (handedBack gradient) length gradient := by
  have branches : incomingBranches (handedBack gradient) length = .ok gradient.toBranches :=
    bind_eq_ok_iff.mpr ⟨gradient.lo, incoming_ofArray _ sized.lo,
      bind_eq_ok_iff.mpr ⟨gradient.hi, incoming_ofArray _ sized.hi, rfl⟩⟩
  exact ⟨branches, incoming_ofArray _ sized.deferred⟩

theorem denseInputs_climbs (dense : denseInputs inputs = .ok values)
    (ready : b.Ready values settings) (steps : Nat) :
    denseInputs (inputs.resume ((Diagrams.climbs b.diagrams values steps).map .ofArray)) =
      .ok (values.resume (Diagrams.climbs b.diagrams values steps)) := by
  refine denseInputs_resume dense ?_
  rw [ready.sized.costs.lo]
  exact ready.stable.sized_flatCosts _

omit [Scalar α] [Zero α] [Add α] [Sub α] [Mul α] [Neg α] in
/-- A solver has the memory for a run if it has it for both blocks. -/
theorem ready_over_iff {s : Solver α} (adds : whole.steps = first.steps + second.steps) :
    s.Ready (settings.over whole) ↔
      s.Ready (settings.over first) ∧ s.Ready (settings.over second) := by
  constructor
  · rintro ⟨intact, window, sums⟩
    have parts := sums.imp_left fun idle => Nat.add_eq_zero_iff.mp (adds.symm.trans idle)
    exact ⟨⟨intact, window, parts.imp_left And.left⟩, ⟨intact, window, parts.imp_left And.right⟩⟩
  · rintro ⟨⟨intact, window, sums⟩, -, -, sums'⟩
    refine ⟨intact, window, ?_⟩
    rcases sums with idle | fits
    · refine sums'.imp_left fun idle' => ?_
      exact adds.trans (Nat.add_eq_zero_iff.mpr ⟨idle, idle'⟩)
    · exact .inr fits

theorem batch_ready_over_iff (adds : whole.steps = first.steps + second.steps) :
    b.Ready values (settings.over whole) ↔ b.Ready values (settings.over first) ∧
      b.Ready (values.resume (Diagrams.climbs b.diagrams values first.steps))
        (settings.over second) := by
  constructor
  · rintro ⟨stable, sized, each⟩
    have climbed := stable.sized_flatCosts (Diagrams.climbAt b.diagrams values first.steps)
    refine ⟨⟨stable, sized, fun member inside => ?_⟩,
      ⟨stable, ⟨climbed, sized.weights, sized.damping⟩, fun member inside => ?_⟩⟩
    · exact ((ready_over_iff adds).mp (each member inside)).1
    · exact ((ready_over_iff adds).mp (each member inside)).2
  · rintro ⟨⟨stable, sized, each⟩, -, -, each'⟩
    exact ⟨stable, sized, fun member inside =>
      (ready_over_iff adds).mpr ⟨each member inside, each' member inside⟩⟩

section Plain

variable (unlimited : b.Unlimited) (flat : Scalar.lt 0 settings.slope = false)
include unlimited flat

/-- What an ascent that answers was given, and what it answers, whatever the solvers did before. -/
theorem exists_of_ascend {b' : Batch (Solver α)} (same : standings b' = standings b) {block : Block}
    {ascended : Ascended α} {record : AscentRecord α}
    (ok : ((ascend inputs (settings.over block)).run b').result = .ok (ascended, record)) :
    ∃ values, denseInputs inputs = .ok values ∧ b.Ready values (settings.over block) ∧
      ascended.costs = Diagrams.climbs b.diagrams values block.steps ∧
      record = ascentRecord b values (settings.over block) ∧
      standings ((ascend inputs (settings.over block)).run b').state = standings b := by
  have kept : standings ((ascend inputs (settings.over block)).run b').state = standings b := by
    refine (standings_ascend fun cause broken => ?_).trans same
    cases ok.symm.trans broken
  -- The batch itself would give the same answer.
  rw [(agrees_ascend inputs (settings.over block) same).result] at ok
  obtain ⟨values, dense, ready⟩ := ready_of_ascend unlimited ok
  obtain ⟨trend, answered⟩ := ascend_of_ready ready unlimited flat dense
  cases answered.symm.trans ok
  exact ⟨values, dense, ready, rfl, rfl, kept⟩

/-- Two ascents in a row arrive where one over all steps does. -/
theorem exists_of_ascendTwice {before after : Ascended α × AscentRecord α}
    (ok : ((ascendTwice inputs (settings.over first) (settings.over second)).run b).result =
      .ok (before, after)) :
    ∃ values, denseInputs inputs = .ok values ∧ b.Ready values (settings.over first) ∧
      let resumed := values.resume (Diagrams.climbs b.diagrams values first.steps)
      b.Ready resumed (settings.over second) ∧
      after.1.costs = Diagrams.climbs b.diagrams values (first.steps + second.steps) ∧
      before.2 = ascentRecord b values (settings.over first) ∧
      after.2 = ascentRecord b resumed (settings.over second) ∧
      standings ((ascendTwice inputs (settings.over first) (settings.over second)).run b).state =
        standings b := by
  obtain ⟨⟨ascended, record⟩, climbed, rest⟩ := result_bind_eq_ok_iff.mp ok
  obtain ⟨⟨ascended', record'⟩, climbed', same⟩ := result_bind_eq_ok_iff.mp rest
  cases same
  have state_eq : ((ascendTwice inputs (settings.over first) (settings.over second)).run b).state =
      ((ascend (inputs.resume (ascended.costs.map .ofArray)) (settings.over second)).run
        ((ascend inputs (settings.over first)).run b).state).state :=
    (state_bind_of_ok climbed).trans (state_bind_of_ok climbed')
  obtain ⟨values, dense, ready, costs, rfl, kept⟩ := exists_of_ascend unlimited flat rfl climbed
  have resumed := denseInputs_climbs dense ready first.steps
  dsimp only at climbed' costs
  rw [costs] at climbed' state_eq
  obtain ⟨values', dense', ready', costs', rfl, kept'⟩ :=
    exists_of_ascend unlimited flat kept climbed'
  cases resumed.symm.trans dense'
  refine ⟨values, dense, ready, ready', ?_, rfl, rfl, ?_⟩
  · exact costs'.trans (Diagrams.climbs_resume b.diagrams values first.steps second.steps)
  · rw [state_eq]
    exact kept'

theorem ascendTwice_of_ready (dense : denseInputs inputs = .ok values)
    (ready : b.Ready values (settings.over first))
    (ready' : b.Ready (values.resume (Diagrams.climbs b.diagrams values first.steps))
      (settings.over second)) :
    ∃ answers, ((ascendTwice inputs (settings.over first) (settings.over second)).run b).result =
      .ok answers := by
  obtain ⟨trend, climbed⟩ := ascend_of_ready ready unlimited flat dense
  obtain ⟨_, _, _, _, _, kept⟩ := exists_of_ascend unlimited flat rfl climbed
  obtain ⟨trend', climbed'⟩ := ascend_of_ready ready' unlimited flat
    (denseInputs_climbs dense ready first.steps)
  have again := (agrees_ascend _ _ kept).result.trans climbed'
  exact ⟨_, result_bind_eq_ok_iff.mpr ⟨_, climbed, result_bind_eq_ok_iff.mpr ⟨_, again, rfl⟩⟩⟩

theorem ascend_iff_ascendTwice (adds : whole.steps = first.steps + second.steps) :
    (∃ answer, ((ascend inputs (settings.over whole)).run b).result = .ok answer) ↔
      ∃ answers, ((ascendTwice inputs (settings.over first) (settings.over second)).run b).result =
        .ok answers := by
  constructor
  · rintro ⟨answer, ok⟩
    obtain ⟨values, dense, ready⟩ := ready_of_ascend unlimited ok
    obtain ⟨ready, ready'⟩ := (batch_ready_over_iff adds).mp ready
    exact ascendTwice_of_ready unlimited flat dense ready ready'
  · rintro ⟨answers, ok⟩
    obtain ⟨values, dense, ready, ready', -⟩ := exists_of_ascendTwice unlimited flat ok
    obtain ⟨trend, climbed⟩ := ascend_of_ready ((batch_ready_over_iff adds).mpr ⟨ready, ready'⟩)
      unlimited flat dense
    exact ⟨_, climbed⟩

/-- The gradients that come back from one block and from two. -/
theorem exists_descents (adds : whole.steps = first.steps + second.steps)
    {gradients : OutputGradients α} {gradient earlier later : Inputs α (Array α)}
    (once : ((roundTrip inputs (settings.over whole) gradients).run b).result = .ok gradient)
    (twice : ((roundTripTwice inputs (settings.over first) (settings.over second)
      gradients).run b).result = .ok (earlier, later)) :
    ∃ (values : Inputs α (Array α)) (outer : Costs (Array α))
      (whole' : Descent b.diagrams values (first.steps + second.steps) outer)
      (later' : Descent b.diagrams
        (values.resume (Diagrams.climbs b.diagrams values first.steps)) second.steps outer)
      (earlier' : Descent b.diagrams values first.steps later'.gradient.costs),
      gradient = whole'.gradient ∧ later = later'.gradient ∧ earlier = earlier'.gradient := by
  obtain ⟨⟨ascended, record⟩, climbed, swept⟩ := result_bind_eq_ok_iff.mp once
  obtain ⟨values, dense, ready, -, rfl, kept⟩ := exists_of_ascend unlimited flat rfl climbed
  have descended := descends_of_ok ready kept whole.covered swept
  have steps_eq : (settings.over whole).iterations = first.steps + second.steps := adds
  rw [steps_eq] at descended
  obtain ⟨outer, accepted, whole', rfl⟩ := descended
  -- The same inputs pass the checks of the first block.
  obtain ⟨⟨before, after⟩, climbed', rest⟩ := result_bind_eq_ok_iff.mp twice
  obtain ⟨values', dense', ready', ready'', -, before_eq, after_eq, kept'⟩ :=
    exists_of_ascendTwice unlimited flat climbed'
  cases dense.symm.trans dense'
  obtain ⟨gradient', swept', rest⟩ := result_bind_eq_ok_iff.mp rest
  obtain ⟨gradient'', swept'', same⟩ := result_bind_eq_ok_iff.mp rest
  cases same
  -- Neither ascent nor the first backward pass changes the standing of a solver.
  have kept'' := (fixes_ascendBackward after.2 gradients _).trans kept'
  rw [after_eq] at swept'
  rw [before_eq] at swept''
  obtain ⟨outer', accepted', later', rfl⟩ := descends_of_ok ready'' kept' second.covered swept'
  cases accepted.unique accepted'
  -- What the later block handed back is accepted as it is.
  obtain ⟨outer'', accepted'', earlier', rfl⟩ := descends_of_ok ready' kept'' first.covered swept''
  have sized : later'.gradient.costs.Sized (Sizes.total .layer b.sizes) := by
    rw [later'.costs_gradient]
    exact ready.stable.sized_flatCosts _
  cases accepted''.unique (incoming_handedBack sized)
  exact ⟨values, outer, whole', later', earlier', rfl, rfl, rfl⟩

end Plain

end Generic

/-- Without limits and with a flat rule it does not matter whether an ascent is made in one block or
in two.  One block answers exactly if the two do, which then arrive at the same costs.  Sent back
through both, the later one first, a gradient of the costs becomes what it becomes through the one
block.  In exact arithmetic the gradients of weights and damping of the two blocks add up. -/
theorem ascend_in_blocks :
    (∀ {α : Type} [Scalar α] [Zero α] [Add α] [Sub α] [Mul α] [Neg α] (b : Batch (Solver α))
      (inputs : Inputs α (Buffer α)) (settings : AscentSettings α) (first second whole : Block),
      b.Unlimited → Scalar.lt 0 settings.slope = false →
      whole.steps = first.steps + second.steps →
      let once := (ascend inputs (settings.over whole)).run b
      let twice := (ascendTwice inputs (settings.over first) (settings.over second)).run b
      ((∃ answer, once.result = .ok answer) ↔ ∃ answers, twice.result = .ok answers) ∧
      (∀ ascended record before after, once.result = .ok (ascended, record) →
        twice.result = .ok (before, after) → after.1.costs = ascended.costs) ∧
      ∀ gradients gradient earlier later,
        ((roundTrip inputs (settings.over whole) gradients).run b).result = .ok gradient →
        ((roundTripTwice inputs (settings.over first) (settings.over second)
          gradients).run b).result = .ok (earlier, later) →
        earlier.costs = gradient.costs) ∧
    (∀ {R : Type} [CommRing R] [Scalar R] (b : Batch (Solver R)) (inputs : Inputs R (Buffer R))
      (settings : AscentSettings R) (first second whole : Block),
      b.Unlimited → Scalar.lt 0 settings.slope = false →
      whole.steps = first.steps + second.steps →
      ∀ gradients gradient earlier later,
        ((roundTrip inputs (settings.over whole) gradients).run b).result = .ok gradient →
        ((roundTripTwice inputs (settings.over first) (settings.over second)
          gradients).run b).result = .ok (earlier, later) →
        gradient.weights = Array.zipWith (· + ·) earlier.weights later.weights ∧
        gradient.damping.toArray =
          Array.zipWith (· + ·) earlier.damping.toArray later.damping.toArray) := by
  refine ⟨fun b inputs settings first second whole unlimited flat adds => ⟨?_, ?_, ?_⟩, ?_⟩
  · exact ascend_iff_ascendTwice unlimited flat adds
  · intro ascended record before after ok ok'
    obtain ⟨values, dense, -, costs, -⟩ := exists_of_ascend unlimited flat rfl ok
    obtain ⟨values', dense', -, -, costs', -⟩ := exists_of_ascendTwice unlimited flat ok'
    cases dense.symm.trans dense'
    rw [costs', costs, adds]
  · intro gradients gradient earlier later ok ok'
    obtain ⟨_, _, whole', later', earlier', rfl, rfl, rfl⟩ :=
      exists_descents unlimited flat adds ok ok'
    exact whole'.costs_earlier later' earlier'
  · intro R _ _ b inputs settings first second whole unlimited flat adds gradients gradient earlier
      later ok ok'
    obtain ⟨_, _, whole', later', earlier', rfl, rfl, rfl⟩ :=
      exists_descents unlimited flat adds ok ok'
    exact ⟨whole'.weights_whole later' earlier', whole'.damping_whole later' earlier'⟩

/-- Two solvers, each with two chains that share a variable. -/
def linked : Batch (Solver ℚ) :=
  ofSolvers [Solver.ofDiagrams ⟨2, [List.finRange 2, [.last 1]]⟩ none none,
    Solver.ofDiagrams ⟨1, [List.finRange 1, List.finRange 1]⟩ none none]

/-- Inputs for their layers, with a damping factor that all of them share. -/
def linkedInputs : Inputs ℚ (Buffer ℚ) where
  costs := Costs.map .ofArray ⟨⟨#[1 / 2, 1, 0, -1, 0, 0, 0, 1, 0], #[1, -2, 0, 3, 0, 2, 0, 0, 0]⟩,
    #[0, 1, 0, 0, 0, -1, 0, 0, 0]⟩
  weights := .ofArray #[1, 1 / 2, 1 / 2, 1 / 2, 1 / 2, 1 / 3, 1 / 2, 2 / 3, 1 / 2]
  damping := .shared (3 / 10)

/-- Gradients of the costs that come out. -/
def linkedGradients : OutputGradients ℚ :=
  ⟨some (.ofArray #[1, 0, 0, 0, 0, 0, 0, -1, 0]), none,
    some (.ofArray #[0, 1, 0, -1, 0, 2, 0, 0, 0]), none, none⟩

theorem linked_in_blocks :
    let settings : AscentSettings ℚ := ⟨0, 0, 0, 0, 2, 1 / 2⟩
    let first : Block := ⟨1, 1, 0, by decide⟩
    let second : Block := ⟨2, 5, 2, by decide⟩
    let whole : Block := ⟨3, 4, 1, by decide⟩
    ∃ (ascended : Ascended ℚ) (record : AscentRecord ℚ) (before after : Ascended ℚ × AscentRecord ℚ)
      (gradient earlier later : Inputs ℚ (Array ℚ)),
      ((ascend linkedInputs (settings.over whole)).run linked).result = .ok (ascended, record) ∧
      ((ascendTwice linkedInputs (settings.over first) (settings.over second)).run linked).result =
        .ok (before, after) ∧ after.1.costs = ascended.costs ∧
      ((roundTrip linkedInputs (settings.over whole) linkedGradients).run linked).result =
        .ok gradient ∧
      ((roundTripTwice linkedInputs (settings.over first) (settings.over second)
        linkedGradients).run linked).result = .ok (earlier, later) ∧
      earlier.costs = gradient.costs ∧
      gradient.weights = Array.zipWith (· + ·) earlier.weights later.weights ∧
      gradient.damping.toArray =
        Array.zipWith (· + ·) earlier.damping.toArray later.damping.toArray := by
  intro settings first second whole
  have unlimited : linked.Unlimited := by
    intro member inside
    obtain ⟨s, solver, rfl⟩ := List.mem_map.mp inside
    rcases List.mem_cons.mp solver with rfl | solver
    · rfl
    · rcases List.mem_cons.mp solver with rfl | absent
      · rfl
      · cases absent
  have flat : Scalar.lt 0 settings.slope = false := by decide +kernel
  have once : ((roundTrip linkedInputs (settings.over whole)
      linkedGradients).run linked).result.toOption.isSome = true := by decide +kernel
  have twice : ((roundTripTwice linkedInputs (settings.over first) (settings.over second)
      linkedGradients).run linked).result.toOption.isSome = true := by decide +kernel
  obtain ⟨gradient, once⟩ := Option.isSome_iff_exists.mp once
  obtain ⟨⟨earlier, later⟩, twice⟩ := Option.isSome_iff_exists.mp twice
  rw [toOption_eq_some_iff] at once twice
  obtain ⟨⟨ascended, record⟩, climbed, -⟩ := result_bind_eq_ok_iff.mp once
  obtain ⟨⟨before, after⟩, climbed', -⟩ := result_bind_eq_ok_iff.mp twice
  obtain ⟨-, costs, handed⟩ := ascend_in_blocks.1 linked linkedInputs settings first second whole
    unlimited flat rfl
  obtain ⟨weights, damping⟩ := ascend_in_blocks.2 linked linkedInputs settings first second whole
    unlimited flat rfl linkedGradients gradient earlier later once twice
  exact ⟨ascended, record, before, after, gradient, earlier, later, climbed, climbed',
    costs ascended record before after climbed climbed', once, twice,
    handed linkedGradients gradient earlier later once twice, weights, damping⟩

end Operation

end DualAscent
