import DualAscent.Engine

/-!
Requests to a solver engine. A request is a call of a routine with blank slices, of which it names
the room; a segment that the routine adds to passes its contents. The answer is what the slices
hold afterwards.
-/

namespace DualAscent

/-- How to summarise the trailing iterations of a run. -/
structure TrendRequest (α : Type) where
  /-- Number of trailing iterations. -/
  window : Nat
  /-- Weight of the past in the averaged solution. -/
  decay : α
  /-- Room for the summary. -/
  room : Trend Nat

/-- Outcome of a run of dual iterations. -/
structure Realized (α : Type) where
  /-- Iterations that were run. -/
  iterations : Nat
  /-- Summary, if one was asked for. -/
  trend : Option (Trend (Array α))

/-- What slices ask for. -/
def TrendSlices.request {α : Type} (trend : TrendSlices α) : TrendRequest α where
  window := trend.window
  decay := trend.decay
  room := trend.slices.map Array.size

/-- A request to an engine, indexed by the type of the answer. -/
inductive Request (α : Type) : Type → Type where
  /-- Binds working costs. -/
  | setCosts (costs : Costs (Array α)) : Request α Unit
  /-- Reads the working costs. -/
  | costs (room : Costs Nat) : Request α (Costs (Array α))
  /-- Runs dual iterations. -/
  | iterations (weights : Array α) (limit : Nat) (damping : Damping α (Array α)) (slope : α)
      (trend : Option (TrendRequest α)) : Request α (Realized α)
  /-- Sends a gradient back through the latest run, starting from the bound costs. -/
  | gradIterations (weights : Array α) (damping : Damping α (Array α))
      (gradient : Inputs α (Array α)) (window : ReplayWindow) (caches : Nat) :
      Request α (Inputs α (Array α))
  /-- Moves the deferred min-marginals into the costs. -/
  | distributeDelta : Request α Unit
  /-- Gradient of the deferred min-marginals before that move. -/
  | gradDistributeDelta (gradient : Branches (Array α)) (room : Nat) : Request α (Array α)
  /-- Min-marginal differences of all layers. -/
  | minMarginals (room : Nat) : Request α (Array α)
  /-- Gradient of the costs behind the min-marginal differences. -/
  | gradMinMarginals (gradient : Array α) (room : Branches Nat) : Request α (Branches (Array α))
  /-- Adds a perturbation per slot to the costs. -/
  | perturb (change : Branches (Array α)) : Request α Unit
  /-- Gradient of the perturbation. -/
  | gradPerturb (gradient : Branches (Array α)) (room : Branches Nat) :
      Request α (Branches (Array α))
  /-- Lower bound of every diagram. -/
  | lowerBounds (room : Nat) : Request α (Array α)
  /-- Gradient of the costs behind the lower bounds: added to the low branch, and overwriting
  what was there for the high branch. -/
  | gradLowerBounds (gradient : Array α) (low : Array α) (room : Nat) :
      Request α (Branches (Array α))
  /-- Rounds to an assignment of the variables. -/
  | rounding (settings : RoundingSettings α) : Request α (Rounding α)
  /-- Branch choice of every layer. -/
  | solution (room : Nat) : Request α (Array α)

namespace Lent

variable {Λ σ δ ε β γ τ : Type}

/-- Lends slices for the time of a procedure, and makes an answer of what it returns and of what
they hold then. A procedure that fails has none. -/
def lending (slices : δ) (answer : β → δ → γ) (work : Procedure Λ (Lent σ δ) ε β) :
    Procedure Λ σ ε γ := fun engine =>
  let outcome := work.run ⟨engine, slices⟩
  { events := outcome.events
    state := outcome.state.engine
    result := outcome.result.map fun value => answer value outcome.state.slices }

variable {slices : δ} {answer : β → δ → γ}

/-- The slices that a procedure starts with. -/
theorem lending_read_bind (next : Lent σ δ → Procedure Λ (Lent σ δ) ε β) :
    lending slices answer (Procedure.read >>= next) =
      Procedure.read >>= fun s => lending slices answer (next ⟨s, slices⟩) := rfl

theorem lending_lift_bind (check : Except ε τ) (next : τ → Procedure Λ (Lent σ δ) ε β) :
    lending slices answer (Procedure.lift check >>= next) =
      Procedure.lift check >>= fun value => lending slices answer (next value) := by
  cases check <;> rfl

theorem lending_overwrite_bind (change : δ → δ) (next : Unit → Procedure Λ (Lent σ δ) ε β) :
    lending slices answer (overwrite change >>= next) =
      lending (change slices) answer (next ()) := rfl

theorem lending_overwrite {answer : Unit → δ → γ} (change : δ → δ) :
    lending slices answer (overwrite change : Procedure Λ (Lent σ δ) ε Unit) =
      pure (answer () (change slices)) := rfl

theorem lending_onEngine_bind (work : Procedure Λ σ ε τ)
    (next : τ → Procedure Λ (Lent σ δ) ε β) :
    lending slices answer (onEngine work >>= next) =
      work >>= fun value => lending slices answer (next value) := by
  funext s
  simp only [lending, Procedure.run, bind, Procedure.bind, onEngine]
  cases (work s).result <;> rfl

/-- Slices that are not written do not show. -/
theorem lending_onEngine (work : Procedure Λ σ ε β) :
    lending slices (fun value _ => value) (onEngine work) = work := by
  funext s
  simp only [lending, Procedure.run, onEngine]
  cases result : (work s).result with
  | error e => exact congrArg (Outcome.mk (work s).events (work s).state) result.symm
  | ok value => exact congrArg (Outcome.mk (work s).events (work s).state) result.symm

end Lent

/-- A call and the slices to lend for it, with the answer to make of the outcome. -/
structure Lending (α γ : Type) where
  /-- The slices of the call. -/
  {Slices : Type}
  /-- What the call returns. -/
  {Value : Type}
  /-- The call. -/
  invocation : Invocation α Slices Value
  /-- What the slices hold at first. -/
  slices : Slices
  /-- The answer. -/
  answer : Value → Slices → γ

/-- A slice of so many zeros. -/
def blank {α : Type} [Zero α] (room : Nat) : Array α := Array.replicate room 0

/-- The call that serves a request. -/
def Request.lending {α β : Type} [Zero α] : Request α β → Lending α β
  | setCosts bound => ⟨.setCosts bound, (), fun _ _ => ()⟩
  | costs room => ⟨.costs, room.map blank, fun _ bound => bound⟩
  | iterations weights limit damping slope trend =>
    { invocation := .iterations weights limit damping slope
      slices := trend.map fun request =>
        ⟨request.window, request.decay, request.room.map blank⟩
      answer := fun steps trend => ⟨steps, trend.map (·.slices)⟩ }
  | gradIterations weights damping gradient window caches =>
    ⟨.gradIterations weights damping window caches, gradient, fun _ gradient => gradient⟩
  | distributeDelta => ⟨.distributeDelta, (), fun _ _ => ()⟩
  | gradDistributeDelta gradient room =>
    ⟨.gradDistributeDelta gradient, blank room, fun _ values => values⟩
  | minMarginals room => ⟨.minMarginals, blank room, fun _ values => values⟩
  | gradMinMarginals gradient room =>
    ⟨.gradMinMarginals gradient, ⟨blank room.lo, blank room.hi⟩, fun _ branches => branches⟩
  | perturb change => ⟨.perturb change, (), fun _ _ => ()⟩
  | gradPerturb gradient room =>
    ⟨.gradPerturb gradient, ⟨blank room.lo, blank room.hi⟩, fun _ branches => branches⟩
  | lowerBounds room => ⟨.lowerBounds, blank room, fun _ values => values⟩
  | gradLowerBounds gradient low room =>
    ⟨.gradLowerBounds gradient, ⟨low, blank room⟩, fun _ branches => branches⟩
  | rounding settings => ⟨.rounding settings, (), fun rounding _ => rounding⟩
  | solution room => ⟨.solution, blank room, fun _ values => values⟩

/-- The routine that serves a request. -/
def Request.routine {α β : Type} : Request α β → Routine
  | setCosts _ => .setCosts
  | costs _ => .costs
  | iterations .. => .iterations
  | gradIterations .. => .gradIterations
  | distributeDelta => .distributeDelta
  | gradDistributeDelta .. => .gradDistributeDelta
  | minMarginals _ => .minMarginals
  | gradMinMarginals .. => .gradMinMarginals
  | perturb _ => .perturb
  | gradPerturb .. => .gradPerturb
  | lowerBounds _ => .lowerBounds
  | gradLowerBounds .. => .gradLowerBounds
  | rounding _ => .rounding
  | solution _ => .solution

/-- The call that serves a request is one of its routine. -/
theorem Request.routine_lending {α β : Type} [Zero α] (request : Request α β) :
    request.lending.invocation.routine = request.routine := by
  cases request <;> rfl

/-- Serves a request. -/
def Engine.perform {α σ β : Type} [Zero α] [Engine α σ] (request : Request α β) :
    Procedure (Event α) σ EngineError β :=
  Lent.lending request.lending.slices request.lending.answer
    (Engine.call request.lending.invocation)

end DualAscent
