import DualAscent.Costs
import DualAscent.Error

/-!
The checks that batched operations make on their buffers before and after the engines run. Each
one reports the first offence in the order of its arguments.
-/

namespace DualAscent

variable {α : Type}

namespace Buffer

/-- The elements of a buffer that has to be densely packed in single precision. -/
def dense [Scalar α] (name : String) (b : Buffer α) : Except (Error α) (Array α) :=
  match b.formatFault? with
  | some fault => .error (.format name fault)
  | none => .ok b.elements

/-- Accepts the buffer if it has the expected number of elements. -/
def requireLength (name : String) (b : Buffer α) (expected : Nat) : Except (Error α) Unit :=
  if b.length = expected then .ok () else .error (.shape name expected b.length)

end Buffer

/-- Accepts the named buffers if all of them are densely packed in single precision. -/
def requireDense [Scalar α] (named : List (String × Buffer α)) : Except (Error α) Unit :=
  named.forM fun (name, b) => (fun _ => ()) <$> b.dense name

/-- Accepts an array if it has the expected length. -/
def requireSize (name : String) (values : Array α) (expected : Nat) : Except (Error α) Unit :=
  if values.size = expected then .ok () else .error (.shape name expected values.size)

/-- The elements of a low and a high branch buffer of the given names. -/
def Branches.dense [Scalar α] (low high : String) (branches : Branches (Buffer α)) :
    Except (Error α) (Branches (Array α)) := do
  let lo ← branches.lo.dense low
  let hi ← branches.hi.dense high
  return ⟨lo, hi⟩

/-- The elements of the buffers of working costs. -/
def Costs.dense [Scalar α] (costs : Costs (Buffer α)) : Except (Error α) (Costs (Array α)) := do
  let branches ← costs.toBranches.dense "lo_costs" "hi_costs"
  let deferred ← costs.deferred.dense "def_mm"
  return ⟨branches, deferred⟩

/-- Accepts costs with as many deferred min-marginals and high as low branch costs. -/
def Costs.requireAligned (costs : Costs (Array α)) : Except (Error α) Unit := do
  requireSize "hi_costs" costs.hi costs.lo.size
  requireSize "def_mm" costs.deferred costs.lo.size

/-- Accepts the named gradients if all their elements are finite. -/
def requireFinite [Scalar α] (named : List (String × Buffer α)) : Except (Error α) Unit :=
  named.forM fun (name, b) =>
    if b.nonFinite = 0 then .ok () else .error (.nonFinite name b.nonFinite b.length)

/-- Accepts a layout that covers an array of the given length exactly. -/
def Layout.require (layout : Layout) (length : Nat) : Except (Error α) Unit :=
  if layout.fits length then .ok ()
  else .error (.layoutMismatch layout.kind layout.total length)

/-- The elements of an incoming gradient; a missing one is zero. -/
def incoming [Zero α] [Scalar α] (name : String) (gradient : Option (Buffer α)) (length : Nat) :
    Except (Error α) (Array α) :=
  match gradient with
  | none => .ok (Array.replicate length 0)
  | some b => do
    let values ← b.dense name
    requireSize name values length
    return values

namespace Damping

/-- Reads a buffer of one element as a shared factor and any other as one factor per layer. -/
def ofBuffer [Scalar α] (b : Buffer α) : Except (Error α) (Damping α (Buffer α)) :=
  if b.length = 1 then do
    let values ← b.dense "omega"
    return match values[0]? with
      | some value => .shared value
      | none => .perLayer b
  else .ok (.perLayer b)

/-- The factors, which have to be densely packed and one per layer. -/
def dense [Scalar α] (damping : Damping α (Buffer α)) (layers : Nat) :
    Except (Error α) (Damping α (Array α)) :=
  match damping with
  | .shared value => .ok (.shared value)
  | .perLayer b => do
    let values ← b.dense "omega"
    requireSize "omega" values layers
    return .perLayer values

end Damping

end DualAscent
