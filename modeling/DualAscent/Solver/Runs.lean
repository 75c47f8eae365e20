import DualAscent.Ascent.Reverse
import DualAscent.Ascent.Rounding
import DualAscent.Ascent.Trend
import DualAscent.Solver.Basic

/-!
Routines that run dual iterations: a recorded run, the gradient of the latest recorded run, and
primal rounding, which iterates without recording.
-/

namespace DualAscent.Solver

open Procedure Lent

variable {α : Type}

/-- Bytes that a remembered step takes up front. -/
def stepBytes : Nat := 24

/-- Bytes that a slot's sum takes. -/
def sumBytes : Nat := 4

/-- Accepts a request for a summary if there is room for it, if memory for its whole window and
the state before it can be set aside, and if the costs to summarise are in place. -/
def checkTrend (s : Solver α) : Option (TrendRequest α) → Except EngineError Unit
  | none => .ok ()
  | some request => do
    room "sol_avg" request.room.average s.layers
    room "lb_first_order" request.room.first s.bdds
    room "lb_second_order" request.room.second s.bdds
    if fitsMemory (request.window + 1) stepBytes then s.checkIntact
    else .error (.misuse .outOfMemory)

/-- Sets memory for the sums of all slots aside, which the first of some steps needs. Without it
the run breaks off. -/
def reserveSums [Zero α] (steps : Nat) : Work α Unit := do
  let s ← read
  if steps ≠ 0 ∧ fitsMemory s.slots sumBytes = false then
    write s.torn
    fail (.misuse .outOfMemory)

/-- Nothing happens if there is memory for the sums, or no step to make. -/
theorem run_reserveSums_of_fits [Zero α] {steps : Nat} {s : Solver α}
    (fits : steps = 0 ∨ fitsMemory s.slots sumBytes = true) :
    (reserveSums steps).run s = ⟨[], s, .ok ()⟩ := by
  have quiet : ¬(steps ≠ 0 ∧ fitsMemory s.slots sumBytes = false) := by
    rintro ⟨some_steps, unfit⟩
    cases fits with
    | inl none => exact some_steps none
    | inr fits => simp [unfit] at fits
  rw [reserveSums, run_read_bind, if_neg quiet, run_pure]

variable [Scalar α] [Zero α] [Add α] [Sub α] [Mul α] [Neg α]

/-- Runs dual iterations, writes a summary if there are slices for it, and puts the run on
record. -/
def iterateInto (weights : Array α) (most : Nat) (damping : Damping α (Array α)) (slope : α) :
    LentWork α (Option (TrendSlices α)) Nat := do
  let lent ← read
  let s := lent.engine
  let trend := lent.slices.map TrendSlices.request
  let weights ← lift (segment "dist_weights" weights s.layers)
  let damping ← lift (dampingSegment "omega" damping s.layers)
  lift (s.checkTrend trend)
  let limit := (s.limit.map (min · most)).getD most
  onEngine (reserveSums limit)
  let ascent : Ascent α s.slots s.layers := ⟨s.diagrams.slotOf, weights, damping⟩
  let rule : StopRule α := ⟨slope, (trend.map (·.window)).getD 0⟩
  let (finish, settled) := ascent.run rule limit (Progress.start s.costs)
  match settled with
  | some improvement => log (.stoppedEarly finish.steps improvement)
  | none => pure ()
  overwrite fun slices => slices.map fun trend =>
    { trend with slices := finish.trend trend.window s.diagrams.chainOf trend.decay }
  onEngine (write { s with costs := finish.current, pending := finish.steps :: s.pending })
  return finish.steps

/-- Sends a gradient back through the latest run, which is then off the record. -/
def iterateBackwardInto (weights : Array α) (damping : Damping α (Array α))
    (window : ReplayWindow) (caches : Nat) : LentWork α (Inputs α (Array α)) Unit := do
  let lent ← read
  let s := lent.engine
  let gradient := lent.slices
  let weights ← lift (segment "dist_weights" weights s.layers)
  let lo ← lift (segment "grad_lo" gradient.costs.lo s.layers)
  let hi ← lift (segment "grad_hi" gradient.costs.hi s.layers)
  let deferred ← lift (segment "grad_deferred" gradient.costs.deferred s.layers)
  let ofWeights ← lift (segment "grad_dist_weights" gradient.weights s.layers)
  let damping ← lift (dampingSegment "omega" damping s.layers)
  let ofDamping ← lift (dampingSegment "grad_omega" gradient.damping s.layers)
  let run := s.pending.head?.getD 0
  if window.total ≠ run then
    fail (.inconsistentReplay window.skip window.tracked run)
  onEngine (write
    { s with pending := s.pending.tail, replays := s.replays.push ⟨window, caches⟩ })
  let ascent : Ascent α s.slots s.layers := ⟨s.diagrams.slotOf, weights, damping⟩
  let swept := ascent.checkpointedSweep (ascent.after window.skip s.costs) window.tracked caches
    ⟨⟨⟨lo, hi⟩, deferred⟩, ofWeights, ofDamping⟩
  overwrite fun _ => swept.map Vector.toArray

/-- Rounds to an assignment of the variables; the costs that rounding arrives at stay bound. -/
def round (settings : RoundingSettings α) : Work α (Rounding α) := do
  let s ← read
  lift (s.checkFailure .rounding)
  let weights ← lift s.evenWeights
  let ascent : Ascent α s.slots s.layers := ⟨s.diagrams.slotOf, weights, .shared Scalar.half⟩
  let (costs, agreed) := ascent.roundFrom settings mostRounds 0 settings.delta s.costs
  write { s with costs }
  match agreed with
  | none => fail (.noAgreement mostRounds)
  | some rounding =>
    log (.agreed rounding.rounds)
    return rounding

end DualAscent.Solver
