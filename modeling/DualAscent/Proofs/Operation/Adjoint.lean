import DualAscent.Proofs.Finite
import DualAscent.Proofs.Operation.Descend
import DualAscent.Proofs.Solver.Adjoint
import Mathlib.Tactic.LinearCombination

/-!
# The gradient of a truncated dual ascent

Paired with any direction, the gradient that a backward pass returns gives what the incoming
gradients give when they are paired with the first-order change of the tracked part of the runs.
-/

namespace DualAscent.Operation

open Procedure Batch

variable {R : Type} [CommRing R]

/-- The first-order changes of the deferred min-marginals of solvers whose segments start at an
index, each over the tail of its own run. -/
def tailChanges (inputs direction : Inputs R (Array R)) (start : Nat) :
    List (Solver R × ReplayWindow) → Array R
  | [] => #[]
  | (s, window) :: rest =>
    let layers : Span := ⟨start, start + s.layers⟩
    (s.tailChange ((inputs.map layers.slice).map (fit s.layers))
        ((direction.map layers.slice).map (fit s.layers)) window).toArray ++
      tailChanges inputs direction (start + s.layers) rest

theorem pair_map_toArray {n : Nat} (gradient direction : Inputs R (Vector R n)) :
    (gradient.map Vector.toArray).pair dot (direction.map Vector.toArray) =
      gradient.pair entryDot direction := by
  obtain ⟨costs, weights, damping⟩ := gradient
  obtain ⟨costs', weights', damping'⟩ := direction
  cases damping with
  | shared value => cases damping' <;> rfl
  | perLayer values => cases damping' <;> rfl

theorem pair_map_slice (gradient direction : Inputs R (Array R)) (span : Span) :
    gradient.pair dot (direction.map span.slice) =
      gradient.costs.pair dot (direction.costs.map span.slice) +
        dot gradient.weights (span.slice direction.weights) +
        gradient.damping.pair dot (direction.damping.map span.slice) :=
  rfl

theorem matches_segment (inputs : Inputs R (Array R)) (layers : Span) (n : Nat) :
    inputs.damping.Matches ((inputs.map layers.slice).map (fit n)).damping :=
  (Damping.matches_map _ _).trans (Damping.matches_map _ _)

theorem matches_segments {inputs direction : Inputs R (Array R)}
    (matched : inputs.damping.Matches direction.damping) (layers : Span) (n : Nat) :
    ((inputs.map layers.slice).map (fit n)).damping.Matches
      ((direction.map layers.slice).map (fit n)).damping :=
  (matches_segment inputs layers n).symm.trans (matched.trans (matches_segment direction layers n))

theorem matches_oneSwept (record : AscentRecord R) (outer : Costs (Array R)) (s : Solver R)
    (layers : Span) (window : ReplayWindow) (carried : R) :
    record.inputs.damping.Matches (oneSwept record outer s layers window carried).damping := by
  refine (matches_segment record.inputs layers s.layers).trans (Damping.Matches.symm ?_)
  exact s.matches_swept _ window record.caches _ (matches_startDamping rfl carried)

theorem dot_replicate_zero {n : Nat} (second : Vector R n) :
    entryDot (Vector.replicate n 0) second = 0 := by
  rw [entryDot_eq_sum]
  exact Finset.sum_eq_zero fun l _ => by rw [get_replicate, zero_mul]

/-- What one solver returns, paired with its segment of the direction. -/
theorem pair_oneSwept (record : AscentRecord R) (outer : Costs (Array R)) (s : Solver R)
    {layers : Span} (long : layers.length = s.layers) {total : Nat}
    (gradient : outer.Sized total)
    {direction : Inputs R (Array R)} (sized : direction.Sized total)
    (matched : record.inputs.damping.Matches direction.damping) (inside : layers.stop ≤ total)
    (window : ReplayWindow) (carried : R) :
    ((oneSwept record outer s layers window carried).map Vector.toArray).pair dot
        (direction.map layers.slice) =
      dot (layers.slice outer.lo) (layers.slice direction.costs.lo) +
        dot (layers.slice outer.hi) (layers.slice direction.costs.hi) +
        dot (layers.slice outer.deferred)
          (s.tailChange ((record.inputs.map layers.slice).map (fit s.layers))
            ((direction.map layers.slice).map (fit s.layers)) window).toArray +
        (startDamping ((record.inputs.map layers.slice).map (fit s.layers)).damping
          carried).pair entryDot ((direction.map layers.slice).map (fit s.layers)).damping := by
  let values := (record.inputs.map layers.slice).map (fit s.layers)
  let incoming := (outer.map layers.slice).map (fit s.layers)
  let moves := (direction.map layers.slice).map (fit s.layers)
  have incoming_eq : incoming.map Vector.toArray = outer.map layers.slice :=
    (long ▸ gradient.slice inside).map_fit
  have moves_eq : moves.map Vector.toArray = direction.map layers.slice :=
    (long ▸ sized.slice inside).map_fit
  have matched' : values.damping.Matches moves.damping :=
    matches_segments matched layers s.layers
  have started := matches_startDamping matched' carried
  calc
    ((oneSwept record outer s layers window carried).map Vector.toArray).pair dot
        (direction.map layers.slice) =
        (oneSwept record outer s layers window carried).pair entryDot moves := by
      rw [← moves_eq, pair_map_toArray]
    _ = Inputs.pair entryDot
          ⟨incoming, Vector.replicate s.layers 0, startDamping values.damping carried⟩
          (moves.withDeferred (s.tailChange values moves window)) :=
      s.pair_swept matched' window record.caches started
    _ = entryDot incoming.lo moves.costs.lo + entryDot incoming.hi moves.costs.hi +
          entryDot incoming.deferred (s.tailChange values moves window) +
          (startDamping values.damping carried).pair entryDot moves.damping := by
      simp only [Inputs.pair, Costs.pair, Inputs.withDeferred, dot_replicate_zero, add_zero]
    _ = _ := by
      have lo_eq := congrArg (·.lo) incoming_eq
      have hi_eq := congrArg (·.hi) incoming_eq
      have deferred_eq := congrArg (·.deferred) incoming_eq
      have lo_eq' := congrArg (·.costs.lo) moves_eq
      have hi_eq' := congrArg (·.costs.hi) moves_eq
      dsimp only [Costs.map, Inputs.map] at lo_eq hi_eq deferred_eq lo_eq' hi_eq'
      rw [entryDot, entryDot, entryDot, lo_eq, hi_eq, deferred_eq, lo_eq', hi_eq']

theorem dot_append_slice {start middle total : Nat} (first_le : start ≤ middle)
    (second_le : middle ≤ total) {values : Array R} (sized : values.size = total)
    (first : Array R) (aligned : start + first.size = middle) (more : Array R) :
    dot (first ++ more) ((⟨start, total⟩ : Span).slice values) =
      dot first ((⟨start, middle⟩ : Span).slice values) +
        dot more ((⟨middle, total⟩ : Span).slice values) := by
  rw [Span.slice_eq_append first_le second_le]
  refine dot_append ?_ _ _
  rw [Span.size_slice _ _ (sized ▸ second_le)]
  exact (Nat.sub_eq_of_eq_add' aligned.symm).symm

theorem dot_slice_append {start middle total : Nat} (first_le : start ≤ middle)
    (second_le : middle ≤ total) {values : Array R} (sized : values.size = total)
    (first : Array R) (aligned : start + first.size = middle) (more : Array R) :
    dot ((⟨start, total⟩ : Span).slice values) (first ++ more) =
      dot ((⟨start, middle⟩ : Span).slice values) first +
        dot ((⟨middle, total⟩ : Span).slice values) more := by
  rw [Span.slice_eq_append first_le second_le]
  refine dot_append ?_ _ _
  rw [Span.size_slice _ _ (sized ▸ second_le)]
  exact Nat.sub_eq_of_eq_add' aligned.symm

theorem dot_slices {start middle total : Nat} (first_le : start ≤ middle)
    (second_le : middle ≤ total) {first second : Array R} (first_size : first.size = total)
    (second_size : second.size = total) :
    dot ((⟨start, total⟩ : Span).slice first) ((⟨start, total⟩ : Span).slice second) =
      dot ((⟨start, middle⟩ : Span).slice first) ((⟨start, middle⟩ : Span).slice second) +
        dot ((⟨middle, total⟩ : Span).slice first) ((⟨middle, total⟩ : Span).slice second) := by
  rw [Span.slice_eq_append first_le second_le first]
  refine dot_append_slice first_le second_le second_size _ ?_ _
  rw [Span.size_slice _ _ (first_size ▸ second_le)]
  exact Nat.add_sub_cancel' first_le

theorem pair_joinCosts_cons {start middle total : Nat} (first_le : start ≤ middle)
    (second_le : middle ≤ total) {direction : Costs (Array R)} (sized : direction.Sized total)
    {n : Nat} (long : start + n = middle) (first : Costs (Vector R n))
    (others : List (Costs (Array R))) :
    (joinCosts (first.map Vector.toArray :: others)).pair dot
        (direction.map (⟨start, total⟩ : Span).slice) =
      (first.map Vector.toArray).pair dot (direction.map (⟨start, middle⟩ : Span).slice) +
        (joinCosts others).pair dot (direction.map (⟨middle, total⟩ : Span).slice) := by
  have pieces : ∀ {entries : Array R} (segment : Vector R n) (more : Array R),
      entries.size = total →
        dot (segment.toArray ++ more) ((⟨start, total⟩ : Span).slice entries) =
          dot segment.toArray ((⟨start, middle⟩ : Span).slice entries) +
            dot more ((⟨middle, total⟩ : Span).slice entries) :=
    fun segment more aligned => dot_append_slice first_le second_le aligned segment.toArray
      ((congrArg (start + ·) segment.size_toArray).trans long) more
  have lo := pieces first.lo (joinCosts others).lo sized.lo
  have hi := pieces first.hi (joinCosts others).hi sized.hi
  have deferred := pieces first.deferred (joinCosts others).deferred sized.deferred
  refine (congrArg₂ (· + ·) (congrArg₂ (· + ·) lo hi) deferred).trans ?_
  simp only [Costs.pair, Costs.map]
  ring

/-- What one solver contributes to the gradient of a shared factor is carried along, and what it
returns for factors per layer comes before the factors of all later solvers. -/
theorem pair_damping_cons (record : AscentRecord R) {start middle total : Nat}
    (first_le : start ≤ middle) (second_le : middle ≤ total) {n : Nat}
    (long : start + n = middle) (factors swept moves : Damping R (Vector R n))
    {direction : Damping R (Array R)} (sized : direction.Sized total)
    (kind : record.inputs.damping.Matches factors) (returned : factors.Matches swept)
    (moves_eq : moves.map Vector.toArray = direction.map (⟨start, middle⟩ : Span).slice)
    (moving : factors.Matches moves) {value : Inputs R (Array R)}
    (value_eq : value.damping = swept.map Vector.toArray) (carried last : R)
    (parts : List (Inputs R (Array R))) :
    (gathered record last (value :: parts)).damping.pair dot
          (direction.map (⟨start, total⟩ : Span).slice) +
        (gathered record (value.damping.shared?.getD carried) []).damping.pair dot
          (direction.map (⟨middle, total⟩ : Span).slice) +
        (startDamping factors carried).pair entryDot moves =
      (gathered record last parts).damping.pair dot (direction.map (⟨middle, total⟩ : Span).slice) +
        value.damping.pair dot (direction.map (⟨start, middle⟩ : Span).slice) +
        (gathered record carried []).damping.pair dot
          (direction.map (⟨start, total⟩ : Span).slice) := by
  cases saved : record.inputs.damping with
  | shared factor =>
      rw [saved] at kind
      obtain ⟨factor, rfl⟩ := kind.of_shared
      obtain ⟨gradient, rfl⟩ := returned.of_shared
      obtain ⟨move, rfl⟩ := moving.of_shared
      obtain rfl : direction = .shared move := by
        cases direction with
        | shared move =>
            cases moves_eq
            rfl
        | perLayer moves => cases moves_eq
      simp only [gathered, saved, value_eq]
      rfl
  | perLayer factors =>
      rw [saved] at kind
      obtain ⟨factors, rfl⟩ := kind.of_perLayer
      obtain ⟨gradients, rfl⟩ := returned.of_perLayer
      obtain ⟨moves, rfl⟩ := moving.of_perLayer
      cases direction with
      | shared move => cases moves_eq
      | perLayer values =>
          have pieces := dot_append_slice first_le second_le sized gradients.toArray
            ((congrArg (start + ·) gradients.size_toArray).trans long)
            (joined (parts.map (·.damping.toArray)))
          have silent : entryDot (Vector.replicate n 0) moves = 0 := dot_replicate_zero moves
          simp only [gathered, saved, List.map_cons, value_eq]
          show dot (gradients.toArray ++ joined _) _ + dot #[] _ + entryDot _ moves =
            dot (joined _) _ + dot gradients.toArray _ + dot #[] _
          rw [pieces, silent, dot_empty, dot_empty]
          ring

/-- One more solver in front of the others. -/
theorem pair_gathered_cons (record : AscentRecord R) (outer : Costs (Array R)) {total : Nat}
    (gradient : outer.Sized total) {direction : Inputs R (Array R)} (sized : direction.Sized total)
    (matched : record.inputs.damping.Matches direction.damping) (s : Solver R) {start : Nat}
    (inside : start + s.layers ≤ total) (window : ReplayWindow) (carried last : R)
    (parts : List (Inputs R (Array R))) :
    let layers : Span := ⟨start, start + s.layers⟩
    let later : Span := ⟨start + s.layers, total⟩
    let rest : Span := ⟨start, total⟩
    let value := (oneSwept record outer s layers window carried).map Vector.toArray
    (gathered record last (value :: parts)).pair dot (direction.map rest.slice) +
        (gathered record (value.damping.shared?.getD carried) []).damping.pair dot
          (direction.damping.map later.slice) =
      (gathered record last parts).pair dot (direction.map later.slice) +
        (dot (layers.slice outer.lo) (layers.slice direction.costs.lo) +
          dot (layers.slice outer.hi) (layers.slice direction.costs.hi) +
          dot (layers.slice outer.deferred)
            (s.tailChange ((record.inputs.map layers.slice).map (fit s.layers))
              ((direction.map layers.slice).map (fit s.layers)) window).toArray) +
        (gathered record carried []).damping.pair dot (direction.damping.map rest.slice) := by
  intro layers later rest value
  have long : layers.length = s.layers := Nat.add_sub_cancel_left _ _
  have before : start ≤ start + s.layers := Nat.le_add_right _ _
  have within : (direction.map layers.slice).Sized s.layers := long ▸ sized.slice inside
  let swept := oneSwept record outer s layers window carried
  have one : value.pair dot (direction.map layers.slice) = _ :=
    pair_oneSwept record outer s long gradient sized matched inside window carried
  have costs : (gathered record last (value :: parts)).costs.pair dot
      (direction.costs.map rest.slice) =
        value.costs.pair dot (direction.costs.map layers.slice) +
          (gathered record last parts).costs.pair dot (direction.costs.map later.slice) :=
    pair_joinCosts_cons before inside sized.costs rfl swept.costs _
  have weights : dot (gathered record last (value :: parts)).weights
      (rest.slice direction.weights) =
        dot value.weights (layers.slice direction.weights) +
          dot (gathered record last parts).weights (later.slice direction.weights) :=
    dot_append_slice before inside sized.weights _
      (congrArg (start + ·) swept.weights.size_toArray) _
  have kind := matches_segment record.inputs layers s.layers
  have returned := kind.symm.trans (matches_oneSwept record outer s layers window carried)
  have value_eq : value.damping = swept.damping.map Vector.toArray := rfl
  have factors := pair_damping_cons record before inside rfl _ _ _ sized.damping kind returned
    (congrArg (·.damping) within.map_fit) (matches_segments matched layers s.layers) value_eq
    carried last parts
  rw [pair_map_slice] at one
  rw [pair_map_slice, pair_map_slice]
  linear_combination one + factors + costs + weights

theorem pair_gathered_nil (record : AscentRecord R) (direction : Damping R (Array R)) :
    (gathered record 0 []).damping.pair dot direction = 0 := by
  cases saved : record.inputs.damping with
  | shared factor =>
      simp only [gathered, saved]
      cases direction with
      | shared move => exact zero_mul move
      | perLayer moves => rfl
  | perLayer factors =>
      simp only [gathered, saved]
      cases direction with
      | shared move => rfl
      | perLayer moves => rfl

omit [CommRing R] in
theorem sized_gathered_cons (record : AscentRecord R) {n : Nat} {value : Inputs R (Vector R n)}
    (kind : record.inputs.damping.Matches value.damping) {carried : R} {total : Nat}
    {parts : List (Inputs R (Array R))} (others : (gathered record carried parts).Sized total) :
    (gathered record carried (value.map Vector.toArray :: parts)).Sized (n + total) := by
  have longer : ∀ {first : Vector R n} {more : Array R}, more.size = total →
      (first.toArray ++ more).size = n + total := by
    intro first more long
    rw [Array.size_append, first.size_toArray, long]
  refine ⟨⟨⟨longer others.costs.lo, longer others.costs.hi⟩, longer others.costs.deferred⟩,
    longer others.weights, ?_⟩
  have factors := others.damping
  cases saved : record.inputs.damping with
  | shared factor =>
      simp only [gathered, saved]
      trivial
  | perLayer values =>
      rw [saved] at kind
      obtain ⟨gradients, value_eq⟩ := kind.of_perLayer
      simp only [gathered, saved] at factors
      simp only [gathered, saved, List.map_cons, Inputs.map, value_eq]
      exact longer factors

section Batch

variable [Scalar R]

theorem pair_served (record : AscentRecord R) (outer : Costs (Array R)) {total : Nat}
    (inputs : record.inputs.Sized total) (gradient : outer.Sized total)
    {direction : Inputs R (Array R)} (sized : direction.Sized total)
    (matched : record.inputs.damping.Matches direction.damping)
    {members : List (Member (Solver R))}
    (stable : ∀ member ∈ members, member.solver.diagrams.sizes = member.frozen)
    (intact : ∀ member ∈ members, member.solver.intact = true) {start : Nat}
    (covers : start + (members.map (·.frozen.layers)).sum = total) {position : Nat}
    {carried last : R} {moved : List (Member (Solver R))} {parts : List (Inputs R (Array R))}
    (served : Served (descendShare record outer) position carried
      (replayShares record start members) members last moved parts) :
    let rest : Span := ⟨start, total⟩
    (gathered record last parts).pair dot (direction.map rest.slice) =
      dot (rest.slice outer.lo) (rest.slice direction.costs.lo) +
        dot (rest.slice outer.hi) (rest.slice direction.costs.hi) +
        dot (rest.slice outer.deferred) (tailChanges record.inputs direction start
          (members.map fun member =>
            (member.solver, .ofRun (member.solver.pending.head?.getD 0) record.tracked))) +
        (gathered record carried []).damping.pair dot (direction.damping.map rest.slice) := by
  induction members generalizing start position carried moved parts with
  | nil =>
      cases served
      obtain rfl : start = total := covers
      simp [Inputs.pair, Costs.pair, gathered, joinCosts, joined, Inputs.map, tailChanges]
  | cons member members ih =>
      obtain ⟨s, frozen⟩ := member
      obtain rfl : s.diagrams.sizes = frozen := stable _ List.mem_cons_self
      cases served with
      | @cons _ _ next _ _ _ _ _ moved value parts here beyond =>
          have covers' : start + s.layers + (members.map (·.frozen.layers)).sum = total :=
            (Nat.add_assoc _ _ _).trans covers
          let window := ReplayWindow.ofRun (s.pending.head?.getD 0) record.tracked
          have inside : start + s.layers ≤ total := covers' ▸ Nat.le_add_right _ _
          have yields := yields_descendOne record outer position ⟨start, start + s.layers⟩ _
            carried (Nat.add_sub_cancel_left _ _) inputs gradient inside
            (intact _ List.mem_cons_self) (ReplayWindow.total_ofRun _ record.tracked)
          obtain ⟨rfl, rfl⟩ := Prod.mk.inj (Except.ok.inj (here.symm.trans yields.result))
          have others := ih (fun other later => stable other (List.mem_cons_of_mem _ later))
            (fun other later => intact other (List.mem_cons_of_mem _ later)) covers' beyond
          have one := pair_gathered_cons record outer gradient sized matched s inside window carried
            last parts
          have before : start ≤ start + s.layers := Nat.le_add_right _ _
          have tails := dot_slice_append before inside gradient.deferred
            (s.tailChange ((record.inputs.map (⟨start, start + s.layers⟩ : Span).slice).map
              (fit s.layers)) ((direction.map (⟨start, start + s.layers⟩ : Span).slice).map
                (fit s.layers)) window).toArray (congrArg (start + ·) (Vector.size_toArray _))
            (tailChanges record.inputs direction (start + s.layers) (members.map fun member =>
              (member.solver, .ofRun (member.solver.pending.head?.getD 0) record.tracked)))
          rw [List.map_cons, tailChanges]
          dsimp only at one others ⊢
          rw [dot_slices before inside gradient.lo sized.costs.lo,
            dot_slices before inside gradient.hi sized.costs.hi, tails]
          linear_combination one + others

theorem sized_gathered (record : AscentRecord R) (outer : Costs (Array R)) {total : Nat}
    (inputs : record.inputs.Sized total) (gradient : outer.Sized total)
    {members : List (Member (Solver R))}
    (stable : ∀ member ∈ members, member.solver.diagrams.sizes = member.frozen)
    (intact : ∀ member ∈ members, member.solver.intact = true) {start : Nat}
    (covers : start + (members.map (·.frozen.layers)).sum ≤ total) {position : Nat}
    {carried last : R} {moved : List (Member (Solver R))} {parts : List (Inputs R (Array R))}
    (served : Served (descendShare record outer) position carried
      (replayShares record start members) members last moved parts) :
    (gathered record last parts).Sized (members.map (·.frozen.layers)).sum := by
  induction members generalizing start position carried moved parts with
  | nil =>
      cases served
      refine ⟨⟨⟨rfl, rfl⟩, rfl⟩, rfl, ?_⟩
      cases saved : record.inputs.damping with
      | shared factor =>
          simp only [gathered, saved]
          trivial
      | perLayer values =>
          simp only [gathered, saved]
          rfl
  | cons member members ih =>
      obtain ⟨s, frozen⟩ := member
      obtain rfl : s.diagrams.sizes = frozen := stable _ List.mem_cons_self
      cases served with
      | @cons _ _ next _ _ _ _ _ moved value parts here beyond =>
          have covers' : start + s.layers + (members.map (·.frozen.layers)).sum ≤ total :=
            (Nat.add_assoc _ _ _).trans_le covers
          have yields := yields_descendOne record outer position ⟨start, start + s.layers⟩ _
            carried (Nat.add_sub_cancel_left _ _) inputs gradient
            ((Nat.le_add_right _ _).trans covers') (intact _ List.mem_cons_self)
            (ReplayWindow.total_ofRun _ record.tracked)
          obtain ⟨rfl, rfl⟩ := Prod.mk.inj (Except.ok.inj (here.symm.trans yields.result))
          have others := ih (fun other later => stable other (List.mem_cons_of_mem _ later))
            (fun other later => intact other (List.mem_cons_of_mem _ later)) covers' beyond
          exact sized_gathered_cons record (matches_oneSwept record outer s _ _ carried) others

/-- The solvers with the windows of their recorded runs. -/
def tails (b : Batch (Solver R)) (record : AscentRecord R) : List (Solver R × ReplayWindow) :=
  b.solvers.zip (record.realized.map (ReplayWindow.ofRun · record.tracked))

/-- The solvers with windows that track the whole of their recorded runs. -/
def wholeRuns (b : Batch (Solver R)) (record : AscentRecord R) : List (Solver R × ReplayWindow) :=
  b.solvers.zip (record.realized.map fun run => ⟨0, run⟩)

theorem map_members_eq_tails {b : Batch (Solver R)} {record : AscentRecord R}
    (awaits : Awaits b record) :
    (b.members.map fun member => (member.solver,
      ReplayWindow.ofRun (member.solver.pending.head?.getD 0) record.tracked)) =
        tails b record := by
  rw [tails, solvers, ← awaits.latest, List.map_map, List.zip_map']
  rfl

omit [CommRing R] [Scalar R] in
theorem tails_eq_wholeRuns (b : Batch (Solver R)) {record : AscentRecord R}
    (short : ∀ run ∈ record.realized, run ≤ record.tracked) :
    tails b record = wholeRuns b record := by
  rw [tails, wholeRuns]
  congr 1
  apply List.map_congr_left
  intro run inside
  rw [ReplayWindow.ofRun, Nat.min_eq_left (short run inside), Nat.sub_self]

/-- The backward pass of a dual ascent returns the gradient of the tails of the runs, with what
the steps before have reached held constant: paired with any direction, it gives what the incoming
gradients give when they are paired with the first-order change of the outputs.  If every run is
tracked as a whole, this is the gradient of the runs. -/
theorem ascendBackward_isAdjoint [AllFinite R] {b : Batch (Solver R)} {record : AscentRecord R}
    (awaits : Awaits b record) {gradients : OutputGradients R} {outer : Costs (Array R)}
    (branches : incomingBranches gradients (b.total .layer) = .ok outer.toBranches)
    (deferred : incoming "grad_def_mm" gradients.deferred (b.total .layer) = .ok outer.deferred) :
    ∃ gradient, ((ascendBackward record gradients).run b).result = .ok gradient ∧
      gradient.Sized (b.total .layer) ∧
      ∀ direction : Inputs R (Array R), direction.Sized (b.total .layer) →
        direction.damping.Matches record.inputs.damping →
        dot outer.lo direction.costs.lo + dot outer.hi direction.costs.hi +
            dot outer.deferred (tailChanges record.inputs direction 0 (tails b record)) =
          gradient.pair dot direction ∧
        ((∀ run ∈ record.realized, run ≤ record.tracked) →
          dot outer.lo direction.costs.lo + dot outer.hi direction.costs.hi +
              dot outer.deferred (tailChanges record.inputs direction 0 (wholeRuns b record)) =
            gradient.pair dot direction) := by
  obtain ⟨last, moved, parts, served, -, -, result⟩ := run_ascendBackward awaits branches deferred
  have covers : 0 + (b.members.map (·.frozen.layers)).sum = b.total .layer := by
    rw [total_eq_sum, sizes, Sizes.total, List.map_map, Nat.zero_add]
    rfl
  have outerSized : outer.Sized (b.total .layer) :=
    ⟨sized_of_incomingBranches branches, size_of_incoming deferred⟩
  have gradientSized := sized_gathered record outer awaits.inputs outerSized awaits.stable
    awaits.intact (Nat.le_of_eq covers) served
  rw [← Nat.zero_add (List.sum _), covers] at gradientSized
  have accepted : checked (gathered record last parts) = .ok (gathered record last parts) := by
    rw [checked, requireFiniteArrays_eq_ok]
    rfl
  refine ⟨gathered record last parts, result.trans accepted, gradientSized,
    fun direction sized matched => ?_⟩
  have paired := pair_served record outer awaits.inputs outerSized sized matched.symm
    awaits.stable awaits.intact covers served
  have tail : dot outer.lo direction.costs.lo + dot outer.hi direction.costs.hi +
      dot outer.deferred (tailChanges record.inputs direction 0 (tails b record)) =
        (gathered record last parts).pair dot direction := by
    dsimp only at paired
    rw [sized.slice_all, sized.damping.slice_all, pair_gathered_nil, add_zero,
      map_members_eq_tails awaits, Span.slice_all outerSized.lo, Span.slice_all outerSized.hi,
      Span.slice_all outerSized.deferred, Span.slice_all sized.costs.lo,
      Span.slice_all sized.costs.hi] at paired
    exact paired.symm
  refine ⟨tail, fun short => ?_⟩
  rw [← tails_eq_wholeRuns b short]
  exact tail

end Batch

/-- A solver with one chain and one with two, whose latest runs differ in length. -/
def unequal : Batch (Solver ℚ) :=
  ofSolvers [
    ⟨⟨1, [[0]]⟩, ⟨⟨#v[0, 0], #v[1, 0]⟩, #v[0, 0]⟩, none, none, [2], #[], true⟩,
    ⟨⟨1, [[0], [0]]⟩, ⟨⟨#v[0, 0, 0, 0], #v[1, 0, 2, 0]⟩, #v[0, 0, 0, 0]⟩, none, none, [1], #[],
      true⟩]

/-- Their runs, of which one iteration is tracked. -/
def unequalRuns : AscentRecord ℚ where
  inputs := ⟨⟨⟨#[0, 0, 0, 0, 0, 0], #[1, 0, 1, 0, 2, 0]⟩, #[0, 0, 0, 0, 0, 0]⟩,
    #[1, 1, 1 / 2, 1 / 2, 1 / 3, 1 / 2], .shared (1 / 2)⟩
  sizes := unequal.sizes
  realized := [2, 1]
  tracked := 1
  caches := 1

theorem unequalRuns_isAdjoint :
    ∃ gradient, ((ascendBackward unequalRuns
        ⟨none, none, some (.ofArray #[1, 0, 0, 1, 0, 0]), none, none⟩).run unequal).result =
          .ok gradient ∧
      ∀ direction : Inputs ℚ (Array ℚ), direction.Sized 6 →
        direction.damping.Matches unequalRuns.inputs.damping →
        dot (Array.replicate 6 0) direction.costs.lo +
            dot (Array.replicate 6 0) direction.costs.hi +
            dot #[1, 0, 0, 1, 0, 0]
              (tailChanges unequalRuns.inputs direction 0 (tails unequal unequalRuns)) =
          gradient.pair dot direction := by
  have awaits : Awaits unequal unequalRuns := by
    refine ⟨rfl, stable_ofSolvers _, ?_, ⟨⟨⟨rfl, rfl⟩, rfl⟩, rfl, trivial⟩, rfl⟩
    simp [unequal, ofSolvers]
  let gradients : OutputGradients ℚ :=
    ⟨none, none, some (.ofArray #[1, 0, 0, 1, 0, 0]), none, none⟩
  let outer : Costs (Array ℚ) :=
    ⟨⟨Array.replicate 6 0, Array.replicate 6 0⟩, #[1, 0, 0, 1, 0, 0]⟩
  have branches : incomingBranches gradients (unequal.total .layer) = .ok outer.toBranches := rfl
  have deferred : incoming "grad_def_mm" gradients.deferred (unequal.total .layer) =
      .ok outer.deferred := incoming_ofArray "grad_def_mm" rfl
  obtain ⟨gradient, ok, -, paired⟩ := ascendBackward_isAdjoint awaits branches deferred
  exact ⟨gradient, ok, fun direction sized matched => (paired direction sized matched).1⟩

end DualAscent.Operation
