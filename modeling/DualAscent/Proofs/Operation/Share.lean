import DualAscent.Proofs.Ascent.Chain
import DualAscent.Proofs.Operation.Carried
import DualAscent.Proofs.Operation.Recorded

/-!
# The share of a solver in a dual ascent

A run that its rule never ends and that no limit cuts short is the same for all solvers over the
same diagrams.  Two such runs in a row arrive where one over all steps does, and so do their reverse
sweeps, the later one first.
-/

namespace DualAscent

open Procedure Batch Operation

variable {α : Type}

/-- The inputs with costs that a run before has arrived at. -/
def Inputs.resume {τ : Type} (inputs : Inputs α τ) (costs : Costs τ) : Inputs α τ :=
  { inputs with costs }

namespace Diagrams

section Climb

variable [Zero α]

/-- The dual ascent on the layers of the diagrams. -/
def ascent (d : Diagrams) (inputs : Inputs α (Array α)) : Ascent α d.slots d.layers :=
  ⟨d.slotOf, fit d.layers inputs.weights, inputs.damping.map (fit d.layers)⟩

variable [Add α] [Sub α] [Mul α]

/-- The costs that so many steps arrive at. -/
def climb (d : Diagrams) (inputs : Inputs α (Array α)) (steps : Nat) :
    Costs (Vector α d.layers) :=
  (d.ascent inputs).after steps (inputs.costs.map (fit d.layers))

theorem climb_resume (d : Diagrams) (inputs : Inputs α (Array α)) (j k : Nat) :
    d.climb (inputs.resume ((d.climb inputs j).map Vector.toArray)) k = d.climb inputs (j + k) := by
  rw [climb, climb, Inputs.resume, Costs.map_fit_toArray]
  exact (Ascent.after_add _ j k _).symm

variable [Neg α]

/-- The gradient before so many steps, of which `outer` is the one of the costs after them.  What
solvers before have contributed to the gradient of a shared damping factor is carried along. -/
def descend (d : Diagrams) (inputs : Inputs α (Array α)) (steps : Nat) (outer : Costs (Array α))
    (carried : α) : Inputs α (Vector α d.layers) :=
  (d.ascent inputs).sweep ((d.ascent inputs).trace steps (inputs.costs.map (fit d.layers)))
    ⟨outer.map (fit d.layers), Vector.replicate d.layers 0,
      startDamping (inputs.damping.map (fit d.layers)) carried⟩

theorem matches_descend (d : Diagrams) (inputs : Inputs α (Array α)) (steps : Nat)
    (outer : Costs (Array α)) (carried : α) :
    (d.descend inputs steps outer carried).damping.Matches inputs.damping := by
  have matched := (Damping.matches_map inputs.damping (fit d.layers)).symm
  exact Ascent.matches_sweep _ _ (matches_startDamping matched carried)

/-- The gradient before the later of two runs in a row. -/
def descendLater (d : Diagrams) (inputs : Inputs α (Array α)) (j k : Nat) (outer : Costs (Array α))
    (carried : α) : Inputs α (Vector α d.layers) :=
  d.descend (inputs.resume ((d.climb inputs j).map Vector.toArray)) k outer carried

/-- A sweep over two runs in a row sweeps over the earlier one what it got from the later one. -/
theorem descend_add (d : Diagrams) (inputs : Inputs α (Array α)) (j k : Nat)
    (outer : Costs (Array α)) (carried : α) :
    d.descend inputs (j + k) outer carried =
      (d.ascent inputs).sweep ((d.ascent inputs).trace j (inputs.costs.map (fit d.layers)))
        (d.descendLater inputs j k outer carried) := by
  rw [descend, Ascent.trace_add, Ascent.sweep_append, descendLater, descend, Inputs.resume,
    Costs.map_fit_toArray]
  rfl

/-- The gradient of the costs is handed from the later run to the earlier one. -/
theorem costs_descend_add (d : Diagrams) (inputs : Inputs α (Array α)) (j k : Nat)
    (outer : Costs (Array α)) (carried earlier later : α) :
    (d.descend inputs (j + k) outer carried).costs =
      (d.descend inputs j ((d.descendLater inputs j k outer later).costs.map Vector.toArray)
        earlier).costs := by
  rw [descend_add]
  refine Ascent.costs_sweep _ _ ?_
  rw [Costs.map_fit_toArray]
  exact Ascent.costs_sweep _ _ rfl

end Climb

/-- In exact arithmetic the gradients of weights and damping of the two runs add up. -/
theorem descend_eq_gain [CommRing α] (d : Diagrams) (inputs : Inputs α (Array α)) (j k : Nat)
    (outer : Costs (Array α)) (earlier later : α) :
    d.descend inputs (j + k) outer (earlier + later) =
      (d.descend inputs j ((d.descendLater inputs j k outer later).costs.map Vector.toArray)
        earlier).gain (d.descendLater inputs j k outer later) := by
  have carried : d.descendLater inputs j k outer (earlier + later) =
      (d.descendLater inputs j k outer later).carry earlier := by
    rw [descendLater, descendLater, descend, descend, ← Ascent.sweep_carry]
    refine congrArg (Ascent.sweep _ _) (congrArg (Inputs.mk _ _) ?_)
    rw [Inputs.resume]
    cases inputs.damping with
    | shared value => exact congrArg Damping.shared (add_comm earlier later)
    | perLayer factors => rfl
  have matched : (d.descendLater inputs j k outer later).damping.Matches inputs.damping :=
    d.matches_descend _ k outer later
  -- The sweep over the earlier run gains what the later one has left in weights and damping.
  rw [descend_add, carried, descend, ← Ascent.sweep_gain, Costs.map_fit_toArray]
  refine congrArg (Ascent.sweep _ _) ?_
  generalize d.descendLater inputs j k outer later = swept at matched
  obtain ⟨costs, weights, damping⟩ := swept
  refine congrArg₂ (Inputs.mk costs) (ext_get fun l => ?_) ?_
  · rw [get_zipWith_add, get_replicate, zero_add]
  · cases kind : inputs.damping with
    | shared value =>
        rw [kind] at matched
        obtain ⟨value', rfl⟩ := matched.symm.of_shared
        exact congrArg Damping.shared (add_comm value' earlier)
    | perLayer factors =>
        rw [kind] at matched
        obtain ⟨factors', rfl⟩ := matched.symm.of_perLayer
        refine congrArg Damping.perLayer (ext_get fun l => ?_)
        rw [get_zipWith_add, get_replicate, zero_add]

end Diagrams

section Solver

variable [Scalar α] [Zero α] [Add α] [Sub α] [Mul α] [Neg α] {s : Solver α}

/-- Without a limit a run makes all steps that a flat rule asks for. -/
theorem Solver.yields_iterate_of_flat (unlimited : s.limit = none) (weights : Vector α s.layers)
    {most : Nat} (damping : Damping α (Vector α s.layers)) {slope : α}
    (flat : Scalar.lt 0 slope = false) {trend : Option (TrendRequest α)}
    (roomy : s.checkTrend trend = .ok ()) (fits : most = 0 ∨ fitsMemory s.slots sumBytes = true) :
    ∃ summary, (iterate weights.toArray most (damping.map Vector.toArray) slope trend).Yields s
      { s with
        costs := (s.ascent weights damping).after most s.costs
        pending := most :: s.pending }
      ⟨most, summary⟩ := by
  have cap_eq : s.cap most = most := by
    rw [cap, unlimited]
    rfl
  have finished := yields_iterate weights damping slope roomy (cap_eq.symm ▸ fits)
  let rule : StopRule α := ⟨slope, (trend.map (·.window)).getD 0⟩
  have flat : Scalar.lt 0 rule.slope = false := flat
  obtain ⟨steps, current⟩ :=
    (s.ascent weights damping).run_of_flat flat (s.cap most) (Progress.start s.costs)
  have steps_eq : (s.finish weights most damping slope trend).1.steps = most :=
    steps.trans ((Nat.zero_add _).trans cap_eq)
  have current_eq : (s.finish weights most damping slope trend).1.current =
      (s.ascent weights damping).after most s.costs := by
    rw [finish, current, cap_eq]
    rfl
  dsimp only at finished
  rw [steps_eq, current_eq] at finished
  exact ⟨_, finished⟩

/-- The solver can be bound to costs and has the memory that an ascent with these settings takes. -/
structure Solver.Ready (s : Solver α) (settings : AscentSettings α) : Prop where
  intact : s.intact = true
  window : settings.summarises = true → fitsMemory (settings.window + 1) stepBytes = true
  sums : settings.iterations = 0 ∨ fitsMemory s.slots sumBytes = true

namespace Operation

omit [Scalar α] [Zero α] [Add α] [Sub α] [Mul α] [Neg α] in
theorem checkTrend_trendRequest_iff (intact : s.intact = true) (settings : AscentSettings α)
    {layers bdds : Span} (long : layers.length = s.layers) (few : bdds.length = s.bdds) :
    s.checkTrend (trendRequest settings layers bdds) = .ok () ↔
      (settings.summarises = true →
        fitsMemory (settings.window + 1) Solver.stepBytes = true) := by
  rw [trendRequest]
  by_cases summarises : settings.summarises = true
  · rw [if_pos summarises]
    simp only [Solver.checkTrend, Solver.room, long, few, if_true, Solver.checkIntact, intact]
    by_cases fits : fitsMemory (settings.window + 1) Solver.stepBytes = true
    · rw [if_pos fits]
      exact ⟨fun _ _ => fits, fun _ => rfl⟩
    · rw [if_neg fits]
      exact ⟨fun ok => (by cases ok), fun needed => absurd (needed summarises) fits⟩
  · rw [if_neg summarises]
    exact ⟨fun _ asked => absurd asked summarises, fun _ => rfl⟩

variable {inputs : Inputs α (Array α)} {settings : AscentSettings α} {layers bdds : Span}
  {total : Nat} (sized : inputs.Sized total) (long : layers.length = s.layers)
  (few : bdds.length = s.bdds) (inside : layers.stop ≤ total)

include sized long few inside

/-- Without a limit a solver makes all steps that a flat rule asks for. -/
theorem ascendOne_of_ready (ready : s.Ready settings) (unlimited : s.limit = none)
    (flat : Scalar.lt 0 settings.slope = false) (i : Nat) :
    ∃ trend, ((ascendOne inputs settings i layers bdds).run s).result =
      .ok (⟨settings.iterations, trend⟩,
        (s.diagrams.climb (inputs.map layers.slice) settings.iterations).map Vector.toArray) := by
  have share := (sized.slice inside).map_fit
  rw [long] at share
  let values := (inputs.map layers.slice).map (fit s.layers)
  let bound : Solver α := { s with costs := values.costs }
  have binding := yields_setCosts sized long inside ready.intact i (.run settings.iterations)
  have roomy : bound.checkTrend (trendRequest settings layers bdds) = .ok () :=
    (checkTrend_trendRequest_iff ready.intact settings long few).mpr ready.window
  obtain ⟨summary, ran⟩ := Solver.yields_iterate_of_flat (s := bound) unlimited values.weights
    values.damping flat roomy ready.sums
  let reached : Solver α := { bound with
    costs := (bound.ascent values.weights values.damping).after settings.iterations values.costs
    pending := settings.iterations :: bound.pending }
  have running : (attempt i (.run settings.iterations) (.iterations
      (inputs.map layers.slice).weights settings.iterations (inputs.map layers.slice).damping
      settings.slope (trendRequest settings layers bdds))).Yields bound reached
      ⟨settings.iterations, summary⟩ := by
    apply yields_attempt i _
    conv in Request.iterations _ _ _ _ _ => rw [← share]
    exact ran
  have reading : (attempt i (.run settings.iterations)
      (.costs (roomForCosts layers))).Yields reached reached (reached.costs.map Vector.toArray) :=
    yields_attempt i _ (Solver.yields_readCosts (s := reached) ready.intact long)
  have whole : (ascendOne inputs settings i layers bdds).Yields s reached
      (⟨settings.iterations, summary⟩, reached.costs.map Vector.toArray) :=
    (Yields.log _ s).bind (binding.bind (running.bind (reading.bind (.pure _ _))))
  exact ⟨summary, whole.result⟩

/-- A solver that answers was able to. -/
theorem able_of_ascendOne {i : Nat} {part : Realized α × Costs (Array α)}
    (ok : ((ascendOne inputs settings i layers bdds).run s).result = .ok part) :
    s.intact = true ∧
      (settings.summarises = true →
        fitsMemory (settings.window + 1) Solver.stepBytes = true) ∧
      (s.cap settings.iterations = 0 ∨ fitsMemory s.slots Solver.sumBytes = true) := by
  have intact : s.intact = true := by
    rcases ascendShare_cases sized settings i layers bdds s long few inside with
      ⟨cause, broken⟩ | ⟨intact, -⟩
    · cases broken.symm.trans ok
    · exact intact
  have binding := yields_setCosts sized long inside intact i (.run settings.iterations)
  rw [ascendOne, ascendWith, (Yields.log _ s).result_bind, binding.result_bind] at ok
  obtain ⟨realized, ran, -⟩ := result_bind_eq_ok_iff.mp ok
  obtain ⟨roomy, fits⟩ := Solver.fits_of_iterate (result_attempt_eq_ok_iff.mp ran)
  exact ⟨intact, (checkTrend_trendRequest_iff intact settings long few).mp roomy, fits⟩

/-- Without a limit a solver that answers was ready. -/
theorem ready_of_ascendOne (unlimited : s.limit = none) {i : Nat}
    {part : Realized α × Costs (Array α)}
    (ok : ((ascendOne inputs settings i layers bdds).run s).result = .ok part) :
    s.Ready settings := by
  obtain ⟨intact, window, sums⟩ := able_of_ascendOne sized long few inside ok
  rw [Solver.cap, unlimited] at sums
  exact ⟨intact, window, sums⟩

end Operation

end Solver

end DualAscent
