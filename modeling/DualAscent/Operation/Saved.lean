import DualAscent.Batch

/-!
What every differentiable operation has in common. A forward pass saves its inputs together with
the sizes of the batch; the backward pass accepts only a batch of those sizes, cuts the saved
inputs into the same segments, and hands out no gradient that is not finite.
-/

namespace DualAscent

/-- What a forward pass keeps for its backward pass. -/
structure Saved (ι : Type) where
  /-- The inputs. -/
  inputs : ι
  /-- The sizes of the batch. -/
  sizes : List Sizes

/-- Gradients of an operation's outputs; a missing one counts as zero. -/
structure OutputGradients (α : Type) where
  /-- Of the low branch costs. -/
  lo : Option (Buffer α)
  /-- Of the high branch costs. -/
  hi : Option (Buffer α)
  /-- Of the deferred min-marginals. -/
  deferred : Option (Buffer α)
  /-- Of the averaged solution, which is not differentiable. -/
  average : Option (Buffer α)
  /-- Of the only output of an operation that has one output. -/
  values : Option (Buffer α)

namespace Operation

variable {α σ : Type}

/-- Zeros for every index of a range. -/
def zeros [Zero α] (span : Span) : Array α := Array.replicate span.length 0

/-- One solver's working costs without deferred min-marginals. -/
def undeferred [Zero α] (branches : Branches (Array α)) (span : Span) : Costs (Array α) where
  lo := span.slice branches.lo
  hi := span.slice branches.hi
  deferred := zeros span

/-- Joins the segments of both branches. -/
def joinBranches (segments : List (Branches (Array α))) : Branches (Array α) where
  lo := joined (segments.map (·.lo))
  hi := joined (segments.map (·.hi))

/-- Joins the segments of working costs. -/
def joinCosts (segments : List (Costs (Array α))) : Costs (Array α) where
  lo := joined (segments.map (·.lo))
  hi := joined (segments.map (·.hi))
  deferred := joined (segments.map (·.deferred))

/-- The elements of low and high branch costs, which have to be of equal length. -/
def denseBranches [Scalar α] (branches : Branches (Buffer α)) :
    Except (Error α) (Branches (Array α)) := do
  let branches ← branches.dense "lo_costs" "hi_costs"
  requireSize "hi_costs" branches.hi branches.lo.size
  return branches

/-- The incoming gradients of both branches' costs. -/
def incomingBranches [Zero α] [Scalar α] (gradients : OutputGradients α) (length : Nat) :
    Except (Error α) (Branches (Array α)) := do
  let lo ← incoming "grad_lo_costs" gradients.lo length
  let hi ← incoming "grad_hi_costs" gradients.hi length
  return ⟨lo, hi⟩

/-- Accepts the named gradient arrays if all their elements are finite. -/
def requireFiniteArrays [Scalar α] (named : List (String × Array α)) : Except (Error α) Unit :=
  requireFinite (named.map fun (name, values) => (name, .ofArray values))

/-- Room for one solver's working costs. -/
def roomForCosts (span : Span) : Costs Nat := ⟨⟨span.length, span.length⟩, span.length⟩

section Engine

variable [Zero α] [Engine α σ] {β : Type}

/-- Binds costs to one solver and asks it then. -/
def ask (i : Nat) (context : Context α) (costs : Costs (Array α)) (request : Request α β) :
    Procedure (Event α) σ (Error α) β := do
  Batch.attempt i context (.setCosts costs)
  Batch.attempt i context request

/-- Announces one solver, binds costs to it and asks it then. -/
def consult (task : Task) (i : Nat) (place : Place) (costs : Costs (Array α))
    (request : Request α β) : Procedure (Event α) σ (Error α) β := do
  Procedure.log (.visiting task i place)
  ask i (.segments place) costs request

end Engine

end Operation

end DualAscent
