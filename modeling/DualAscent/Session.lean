import DualAscent.Operation.Ascend
import DualAscent.Operation.Extract
import DualAscent.Operation.LowerBounds
import DualAscent.Operation.MinMarginals
import DualAscent.Operation.Perturb
import DualAscent.Operation.Redistribute

/-!
Sessions: a batch together with the records of the forward passes whose backward pass has not
been asked for yet. Every record is used at most once, whether or not its backward pass succeeds.
-/

namespace DualAscent

/-- What a forward pass keeps, by operation. -/
inductive Record (α : Type) where
  /-- Of a dual ascent. -/
  | ascent (record : AscentRecord α)
  /-- Of a redistribution. -/
  | redistribution (record : Saved (Costs (Array α)))
  /-- Of min-marginal differences. -/
  | minMarginals (record : Saved (Branches (Array α)))
  /-- Of a perturbation. -/
  | perturbation (record : Saved (Perturbed (Array α)))
  /-- Of lower bounds. -/
  | bounds (record : Saved (Branches (Array α)))

/-- The gradient of an operation's inputs, by operation. -/
inductive InputGradient (α : Type) where
  /-- Of the inputs of a dual ascent. -/
  | ascent (gradient : Inputs α (Array α))
  /-- Of the costs before a redistribution. -/
  | redistribution (gradient : Costs (Array α))
  /-- Of the costs behind min-marginal differences. -/
  | minMarginals (gradient : Branches (Array α))
  /-- Of a perturbation and the costs under it. -/
  | perturbation (gradient : Perturbed (Array α))
  /-- Of the costs behind lower bounds. -/
  | bounds (gradient : Branches (Array α))

/-- A batch at work. -/
structure Session (α σ : Type) where
  /-- The batch. -/
  batch : Batch σ
  /-- Records that are still unused, by label, the newest first. -/
  records : List (Nat × Record α)

/-- Failures of a command. -/
inductive CommandError (α : Type) where
  /-- The operation failed. -/
  | operation (error : Error α)
  /-- There is no unused record with this label. -/
  | noRecord

/-- A call of a batched operation, indexed by the type of the answer. -/
inductive Command (α : Type) : Type → Type where
  /-- Runs dual iterations. -/
  | ascend (inputs : Inputs α (Buffer α)) (settings : AscentSettings α) : Command α (Ascended α)
  /-- Redistributes deferred min-marginals. -/
  | redistribute (costs : Costs (Buffer α)) : Command α (Costs (Array α))
  /-- Computes min-marginal differences. -/
  | minMarginals (branches : Branches (Buffer α)) : Command α (Array α)
  /-- Perturbs costs per variable. -/
  | perturb (inputs : Perturbed (Buffer α)) : Command α (Branches (Array α))
  /-- Computes lower bounds. -/
  | lowerBounds (branches : Branches (Buffer α)) : Command α (Array α)
  /-- Sends gradients back through the forward pass with this label. -/
  | backward (of : Nat) (gradients : OutputGradients α) : Command α (InputGradient α)
  /-- Rounds to assignments of the variables. -/
  | round (costs : Costs (Buffer α)) (settings : RoundingSettings α) :
      Command α (List (Rounding α))
  /-- Reads off the branch choices. -/
  | solution (branches : Branches (Buffer α)) : Command α (Array α)

namespace Session

variable {α σ : Type}

/-- The unused record with a label. -/
def record? (s : Session α σ) (label : Nat) : Option (Record α) := s.records.lookup label

/-- The session without the record of a label. -/
def dropRecord (s : Session α σ) (label : Nat) : Session α σ :=
  { s with records := s.records.eraseP (·.1 = label) }

/-- The session with another batch; records stay. -/
def withBatch (s : Session α σ) (batch : Batch σ) : Session α σ := { s with batch }

/-- Procedures of a session. -/
abbrev Work (α σ β : Type) : Type := Procedure (Event α) (Session α σ) (CommandError α) β

/-- A procedure of the batch. -/
def onBatch {β : Type} (work : Batch.Work α σ β) : Work α σ β := fun s =>
  let outcome := work.run s.batch
  ⟨outcome.events, s.withBatch outcome.state, outcome.result.mapError .operation⟩

/-- A forward pass whose record goes on the list under a label. -/
def recording {β ρ : Type} (label : Nat) (wrap : ρ → Record α)
    (forward : Batch.Work α σ (β × ρ)) : Work α σ β := do
  let (value, record) ← onBatch forward
  let s ← Procedure.read
  Procedure.write { s with records := (label, wrap record) :: s.records }
  return value

variable [Scalar α] [Zero α] [Engine α σ]

/-- The backward pass of a record. -/
def descend (record : Record α) (gradients : OutputGradients α) :
    Batch.Work α σ (InputGradient α) :=
  match record with
  | .ascent record => .ascent <$> Operation.ascendBackward record gradients
  | .redistribution record =>
    .redistribution <$> Operation.redistributeBackward record gradients
  | .minMarginals record => .minMarginals <$> Operation.minMarginalsBackward record gradients
  | .perturbation record => .perturbation <$> Operation.perturbBackward record gradients
  | .bounds record => .bounds <$> Operation.lowerBoundsBackward record gradients

/-- Carries out a command; a forward pass is recorded under the label. -/
def execute {β : Type} (label : Nat) : Command α β → Work α σ β
  | .ascend inputs settings => recording label .ascent (Operation.ascend inputs settings)
  | .redistribute costs => recording label .redistribution (Operation.redistribute costs)
  | .minMarginals branches => recording label .minMarginals (Operation.minMarginals branches)
  | .perturb inputs => recording label .perturbation (Operation.perturb inputs)
  | .lowerBounds branches => recording label .bounds (Operation.lowerBounds branches)
  | .backward of gradients => do
    let s ← Procedure.read
    match s.record? of with
    | none => Procedure.fail .noRecord
    | some record =>
      Procedure.write (s.dropRecord of)
      onBatch (descend record gradients)
  | .round costs settings => onBatch (Operation.round costs settings)
  | .solution branches => onBatch (Operation.solution branches)

end Session

end DualAscent
