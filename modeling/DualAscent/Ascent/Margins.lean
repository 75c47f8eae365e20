import DualAscent.Costs
import DualAscent.GroupedSum
import DualAscent.Scalar

/-!
What the working costs of the layers say: min-marginal differences, the branch that each layer
prefers, and lower bounds. A layer's high branch costs its high cost plus its deferred
min-marginal.
-/

namespace DualAscent.Costs

variable {α : Type} {n chains : Nat}

/-- Cost of taking the high branch at a layer. -/
def highCost [Add α] (c : Costs (Vector α n)) (l : Fin n) : α :=
  c.hi.get l + c.deferred.get l

/-- High minus low branch cost of every layer. -/
def margins [Add α] [Sub α] (c : Costs (Vector α n)) : Vector α n :=
  Vector.ofFn fun l => c.highCost l - c.lo.get l

@[simp]
theorem get_margins [Add α] [Sub α] (c : Costs (Vector α n)) (l : Fin n) :
    c.margins.get l = c.highCost l - c.lo.get l :=
  Vector.getElem_ofFn l.isLt

/-- The layer prefers the high branch; on a tie it takes the low one. -/
def takesHigh [Scalar α] [Add α] (c : Costs (Vector α n)) (l : Fin n) : Bool :=
  Scalar.lt (c.highCost l) (c.lo.get l)

/-- One where a layer takes the high branch, and zero elsewhere. -/
def solution [Scalar α] [Zero α] [Add α] (c : Costs (Vector α n)) : Vector α n :=
  Vector.ofFn fun l => Scalar.indicator (c.takesHigh l)

@[simp]
theorem get_solution [Scalar α] [Zero α] [Add α] (c : Costs (Vector α n)) (l : Fin n) :
    c.solution.get l = Scalar.indicator (c.takesHigh l) :=
  Vector.getElem_ofFn l.isLt

/-- Cost of the cheaper branch of every layer. -/
def branchMinima [Scalar α] [Add α] (c : Costs (Vector α n)) : Vector α n :=
  Vector.ofFn fun l => Scalar.min (c.lo.get l) (c.highCost l)

@[simp]
theorem get_branchMinima [Scalar α] [Add α] (c : Costs (Vector α n)) (l : Fin n) :
    c.branchMinima.get l = Scalar.min (c.lo.get l) (c.highCost l) :=
  Vector.getElem_ofFn l.isLt

/-- Total lower bound over all chains. -/
def bound [Scalar α] [Zero α] [Add α] (c : Costs (Vector α n)) : α := sumInOrder c.branchMinima

/-- Lower bound of every chain. -/
def boundsBy [Scalar α] [Zero α] [Add α] (c : Costs (Vector α n))
    (chainOf : Vector (Fin chains) n) : Vector α chains :=
  sumBy chainOf c.branchMinima

/-- Moves the deferred min-marginals into the high branch costs. -/
def distribute [Zero α] [Add α] (c : Costs (Vector α n)) : Costs (Vector α n) where
  lo := c.lo
  hi := Vector.ofFn c.highCost
  deferred := Vector.replicate n 0

/-- Adds to the branch costs of every layer the perturbation of its slot. -/
def perturb [Add α] {slots : Nat} (c : Costs (Vector α n)) (slotOf : Vector (Fin slots) n)
    (change : Branches (Vector α slots)) : Costs (Vector α n) where
  lo := Vector.ofFn fun l => c.lo.get l + change.lo.get (slotOf.get l)
  hi := Vector.ofFn fun l => c.hi.get l + change.hi.get (slotOf.get l)
  deferred := c.deferred

end DualAscent.Costs
