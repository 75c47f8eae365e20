import DualAscent.Solver.Engine

/-!
Requests to a solver by name, and what each of them comes to with the slices left out: checks of the
segments and of the room, and then the answer.
-/

namespace DualAscent.Solver

open Procedure Lent

variable {α : Type}

section Costs

variable [Zero α]

/-- Reads the working costs. -/
def readCosts (space : Costs Nat) : Work α (Costs (Array α)) :=
  lending (space.map blank) (fun _ costs => costs) costsInto

theorem readCosts_eq (space : Costs Nat) :
    (readCosts space : Work α (Costs (Array α))) = do
      let s ← read
      lift (room "lo" space.lo s.layers)
      lift (room "hi" space.hi s.layers)
      lift (room "deferred" space.deferred s.layers)
      lift s.checkIntact
      return s.costs.map Vector.toArray := by
  simp only [readCosts, costsInto, lending_read_bind, lending_lift_bind, lending_overwrite_bind,
    lending_overwrite, Costs.map, blank, Array.size_replicate]

/-- The gradient of the deferred min-marginals before they are moved. -/
def distributeBackward (gradient : Branches (Array α)) (space : Nat) : Work α (Array α) :=
  lending (blank space) (fun _ values => values) (distributeBackwardInto gradient)

theorem distributeBackward_eq (gradient : Branches (Array α)) (space : Nat) :
    distributeBackward gradient space = do
      let s ← read
      let _ ← lift (segment "grad_lo" gradient.lo s.layers)
      let hi ← lift (segment "grad_hi" gradient.hi s.layers)
      lift (room "grad_deferred" space s.layers)
      return hi.toArray := by
  simp only [distributeBackward, distributeBackwardInto, lending_read_bind, lending_lift_bind,
    lending_overwrite, blank, Array.size_replicate]

/-- Min-marginal differences of all layers. -/
def minMarginals [Add α] [Sub α] (space : Nat) : Work α (Array α) :=
  lending (blank space) (fun _ values => values) minMarginalsInto

theorem minMarginals_eq [Add α] [Sub α] (space : Nat) :
    (minMarginals space : Work α (Array α)) = do
      let s ← read
      lift (s.checkFailure .minMarginals)
      lift (room "mm_diff" space s.layers)
      lift s.checkIntact
      return s.costs.margins.toArray := by
  simp only [minMarginals, minMarginalsInto, lending_read_bind, lending_lift_bind,
    lending_overwrite, blank, Array.size_replicate]

/-- The gradient of the costs behind min-marginal differences. -/
def minMarginalsBackward [Neg α] (gradient : Array α) (space : Branches Nat) :
    Work α (Branches (Array α)) :=
  lending ⟨blank space.lo, blank space.hi⟩ (fun _ branches => branches)
    (minMarginalsBackwardInto gradient)

theorem minMarginalsBackward_eq [Neg α] (gradient : Array α) (space : Branches Nat) :
    minMarginalsBackward gradient space = do
      let s ← read
      let gradient ← lift (segment "grad_mm_diff" gradient s.layers)
      lift (room "grad_lo" space.lo s.layers)
      lift (room "grad_hi" space.hi s.layers)
      return ⟨(gradient.map (-·)).toArray, gradient.toArray⟩ := by
  simp only [minMarginalsBackward, minMarginalsBackwardInto, lending_read_bind,
    lending_lift_bind, lending_overwrite, blank, Array.size_replicate]

/-- The gradient of a perturbation. -/
def perturbBackward [Add α] (gradient : Branches (Array α)) (space : Branches Nat) :
    Work α (Branches (Array α)) :=
  lending ⟨blank space.lo, blank space.hi⟩ (fun _ branches => branches)
    (perturbBackwardInto gradient)

theorem perturbBackward_eq [Add α] (gradient : Branches (Array α)) (space : Branches Nat) :
    perturbBackward gradient space = do
      let s ← read
      let lo ← lift (segment "grad_lo" gradient.lo s.layers)
      let hi ← lift (segment "grad_hi" gradient.hi s.layers)
      lift (room "grad_lo_pert" space.lo s.slots)
      lift (room "grad_hi_pert" space.hi s.slots)
      return ⟨(sumBy s.diagrams.slotOf lo).toArray, (sumBy s.diagrams.slotOf hi).toArray⟩ := by
  simp only [perturbBackward, perturbBackwardInto, lending_read_bind, lending_lift_bind,
    lending_overwrite, blank, Array.size_replicate]

end Costs

section Bounds

variable [Scalar α] [Zero α] [Add α]

/-- Lower bound of every chain. -/
def lowerBounds (space : Nat) : Work α (Array α) :=
  lending (blank space) (fun _ values => values) lowerBoundsInto

theorem lowerBounds_eq (space : Nat) :
    (lowerBounds space : Work α (Array α)) = do
      let s ← read
      lift (s.checkFailure .lowerBounds)
      lift (room "lb_per_bdd" space s.bdds)
      lift s.checkIntact
      return (s.costs.boundsBy s.diagrams.chainOf).toArray := by
  simp only [lowerBounds, lowerBoundsInto, lending_read_bind, lending_lift_bind,
    lending_overwrite, blank, Array.size_replicate]

/-- The gradient of the costs behind lower bounds. -/
def lowerBoundsBackward (gradient : Array α) (low : Array α) (space : Nat) :
    Work α (Branches (Array α)) :=
  lending ⟨low, blank space⟩ (fun _ branches => branches) (lowerBoundsBackwardInto gradient)

theorem lowerBoundsBackward_eq (gradient : Array α) (low : Array α) (space : Nat) :
    lowerBoundsBackward gradient low space = do
      let s ← read
      let gradient ← lift (segment "grad_lb" gradient s.bdds)
      let low ← lift (segment "grad_lo" low s.layers)
      lift (room "grad_hi" space s.layers)
      lift s.checkIntact
      let chainOf := s.diagrams.chainOf
      return {
        lo := Array.ofFn fun l : Fin s.layers =>
          if s.costs.takesHigh l then low.get l else low.get l + gradient.get (chainOf.get l)
        hi := Array.ofFn fun l : Fin s.layers =>
          if s.costs.takesHigh l then gradient.get (chainOf.get l) else 0 } := by
  simp only [lowerBoundsBackward, lowerBoundsBackwardInto, lending_read_bind, lending_lift_bind,
    lending_overwrite, blank, Array.size_replicate]

/-- Branch choice of every layer. -/
def solution (space : Nat) : Work α (Array α) :=
  lending (blank space) (fun _ values => values) solutionInto

theorem solution_eq (space : Nat) :
    (solution space : Work α (Array α)) = do
      let s ← read
      lift (s.checkFailure .solution)
      lift (room "solution" space s.layers)
      lift s.checkIntact
      return s.costs.solution.toArray := by
  simp only [solution, solutionInto, lending_read_bind, lending_lift_bind, lending_overwrite,
    blank, Array.size_replicate]

end Bounds

section Runs

variable [Scalar α] [Zero α] [Add α] [Sub α] [Mul α] [Neg α]

/-- Runs dual iterations and puts the run on record. -/
def iterate (weights : Array α) (most : Nat) (damping : Damping α (Array α)) (slope : α)
    (trend : Option (TrendRequest α)) : Work α (Realized α) :=
  lending (trend.map fun request => ⟨request.window, request.decay, request.room.map blank⟩)
    (fun steps trend => ⟨steps, trend.map (·.slices)⟩) (iterateInto weights most damping slope)

theorem iterate_eq (weights : Array α) (most : Nat) (damping : Damping α (Array α)) (slope : α)
    (trend : Option (TrendRequest α)) :
    iterate weights most damping slope trend = do
      let s ← read
      let weights ← lift (segment "dist_weights" weights s.layers)
      let damping ← lift (dampingSegment "omega" damping s.layers)
      lift (s.checkTrend trend)
      let limit := (s.limit.map (min · most)).getD most
      reserveSums limit
      let ascent : Ascent α s.slots s.layers := ⟨s.diagrams.slotOf, weights, damping⟩
      let rule : StopRule α := ⟨slope, (trend.map (·.window)).getD 0⟩
      let (finish, settled) := ascent.run rule limit (Progress.start s.costs)
      match settled with
      | some improvement => log (.stoppedEarly finish.steps improvement)
      | none => pure ()
      write { s with costs := finish.current, pending := finish.steps :: s.pending }
      return {
        iterations := finish.steps
        trend := trend.map fun request =>
          finish.trend request.window s.diagrams.chainOf request.decay } := by
  have asked : (trend.map fun request : TrendRequest α => (⟨request.window, request.decay,
      request.room.map blank⟩ : TrendSlices α)).map TrendSlices.request = trend := by
    rcases trend with _ | ⟨window, decay, average, first, second⟩
    · rfl
    · simp [TrendSlices.request, Trend.map, blank]
  simp only [iterate, iterateInto, lending_read_bind, asked, lending_lift_bind,
    lending_onEngine_bind]
  refine bind_congr fun s => bind_congr fun weights => bind_congr fun damping =>
    bind_congr fun _ => bind_congr fun _ => ?_
  generalize (Ascent.mk s.diagrams.slotOf weights damping).run _ _ _ = ended
  obtain ⟨finish, settled⟩ := ended
  cases settled <;> cases trend <;> rfl

/-- Sends a gradient back through the latest run, which is then off the record. -/
def iterateBackward (weights : Array α) (damping : Damping α (Array α))
    (gradient : Inputs α (Array α)) (window : ReplayWindow) (caches : Nat) :
    Work α (Inputs α (Array α)) :=
  lending gradient (fun _ gradient => gradient)
    (iterateBackwardInto weights damping window caches)

omit [Scalar α] in
theorem iterateBackward_eq (weights : Array α) (damping : Damping α (Array α))
    (gradient : Inputs α (Array α)) (window : ReplayWindow) (caches : Nat) :
    iterateBackward weights damping gradient window caches = do
      let s ← read
      let weights ← lift (segment "dist_weights" weights s.layers)
      let lo ← lift (segment "grad_lo" gradient.costs.lo s.layers)
      let hi ← lift (segment "grad_hi" gradient.costs.hi s.layers)
      let deferred ← lift (segment "grad_deferred" gradient.costs.deferred s.layers)
      let ofWeights ← lift (segment "grad_dist_weights" gradient.weights s.layers)
      let damping ← lift (dampingSegment "omega" damping s.layers)
      let ofDamping ← lift (dampingSegment "grad_omega" gradient.damping s.layers)
      let run := s.pending.head?.getD 0
      if window.total ≠ run then
        fail (.inconsistentReplay window.skip window.tracked run)
      write { s with pending := s.pending.tail, replays := s.replays.push ⟨window, caches⟩ }
      let ascent : Ascent α s.slots s.layers := ⟨s.diagrams.slotOf, weights, damping⟩
      let swept := ascent.checkpointedSweep (ascent.after window.skip s.costs) window.tracked
        caches ⟨⟨⟨lo, hi⟩, deferred⟩, ofWeights, ofDamping⟩
      return swept.map Vector.toArray := by
  simp only [iterateBackward, iterateBackwardInto, lending_read_bind, lending_lift_bind]
  refine bind_congr fun s => ?_
  iterate 7 refine bind_congr fun _ => ?_
  split <;> rfl

/-- Serves a request. -/
def serve {β : Type} (request : Request α β) : Work α β := Engine.perform request

theorem serve_setCosts (costs : Costs (Array α)) : serve (.setCosts costs) = bindCosts costs :=
  lending_onEngine _

theorem serve_costs (space : Costs Nat) :
    (serve (.costs space) : Work α (Costs (Array α))) = readCosts space := rfl

theorem serve_iterations (weights : Array α) (most : Nat) (damping : Damping α (Array α))
    (slope : α) (trend : Option (TrendRequest α)) :
    serve (.iterations weights most damping slope trend) =
      iterate weights most damping slope trend := rfl

theorem serve_gradIterations (weights : Array α) (damping : Damping α (Array α))
    (gradient : Inputs α (Array α)) (window : ReplayWindow) (caches : Nat) :
    serve (.gradIterations weights damping gradient window caches) =
      iterateBackward weights damping gradient window caches := rfl

theorem serve_distributeDelta : (serve .distributeDelta : Work α Unit) = distribute :=
  lending_onEngine _

theorem serve_gradDistributeDelta (gradient : Branches (Array α)) (space : Nat) :
    serve (.gradDistributeDelta gradient space) = distributeBackward gradient space := rfl

theorem serve_minMarginals (space : Nat) :
    (serve (.minMarginals space) : Work α (Array α)) = minMarginals space := rfl

theorem serve_gradMinMarginals (gradient : Array α) (space : Branches Nat) :
    serve (.gradMinMarginals gradient space) = minMarginalsBackward gradient space := rfl

theorem serve_perturb (change : Branches (Array α)) : serve (.perturb change) = perturb change :=
  lending_onEngine _

theorem serve_gradPerturb (gradient : Branches (Array α)) (space : Branches Nat) :
    serve (.gradPerturb gradient space) = perturbBackward gradient space := rfl

theorem serve_lowerBounds (space : Nat) :
    (serve (.lowerBounds space) : Work α (Array α)) = lowerBounds space := rfl

theorem serve_gradLowerBounds (gradient low : Array α) (space : Nat) :
    serve (.gradLowerBounds gradient low space) = lowerBoundsBackward gradient low space := rfl

theorem serve_rounding (settings : RoundingSettings α) :
    serve (.rounding settings) = round settings :=
  lending_onEngine _

theorem serve_solution (space : Nat) :
    (serve (.solution space) : Work α (Array α)) = solution space := rfl

end Runs

end DualAscent.Solver
