import DualAscent.Ascent.Step
import DualAscent.Diagrams
import DualAscent.Memory
import DualAscent.Request

/-!
The solver for decision diagrams in chain form, and how it reads the segments that cross its
interface. It holds working costs and keeps account of its runs: every run of dual iterations
waits until a gradient is sent back through it, the latest run first. A run for whose sums there
is no memory breaks off and leaves the solver without its deferred min-marginals.
-/

namespace DualAscent

/-- A request to send a gradient back through a run, as it was served. -/
structure Replay where
  /-- Iterations with and without gradients. -/
  window : ReplayWindow
  /-- Checkpoints allowed. -/
  caches : Nat
deriving DecidableEq

/-- A chain solver with its working state. -/
structure Solver (α : Type) where
  /-- The diagrams. -/
  diagrams : Diagrams
  /-- Working costs. -/
  costs : Costs (Vector α diagrams.layers)
  /-- Most iterations per run, if there is such a limit. -/
  limit : Option Nat
  /-- A routine that is set up to fail. -/
  failure : Option Routine
  /-- Lengths of the runs that still wait for their gradient, the latest first. -/
  pending : List Nat
  /-- Gradient requests served, the oldest first. -/
  replays : Array Replay
  /-- The deferred min-marginals are in place. A run that breaks off takes them along, and zeros
  stand where they were. -/
  intact : Bool

namespace Solver

variable {α : Type}

/-- A solver with zero costs and no history. -/
def ofDiagrams [Zero α] (d : Diagrams) (limit : Option Nat) (failure : Option Routine) :
    Solver α where
  diagrams := d
  costs := ⟨⟨Vector.replicate _ 0, Vector.replicate _ 0⟩, Vector.replicate _ 0⟩
  limit
  failure
  pending := []
  replays := #[]
  intact := true

/-- The solver after a run that broke off: the deferred min-marginals are gone, if there were
any. -/
def torn [Zero α] (s : Solver α) : Solver α :=
  { s with
    costs := { s.costs with deferred := Vector.replicate _ 0 }
    intact := s.diagrams.layers = 0 }

/-- Number of layers. -/
abbrev layers (s : Solver α) : Nat := s.diagrams.layers

/-- Number of variable slots. -/
abbrev slots (s : Solver α) : Nat := s.diagrams.slots

/-- Number of chains. -/
abbrev bdds (s : Solver α) : Nat := s.diagrams.bdds

/-- Bytes that a slot's number of layers takes. -/
def countBytes : Nat := 8

/-- Weights that split every variable evenly over its layers, if memory to count the layers of
every slot can be set aside. -/
def evenWeights [Scalar α] (s : Solver α) : Except EngineError (Vector α s.layers) :=
  if fitsMemory s.slots countBytes then .ok (Ascent.evenWeights s.diagrams.slotOf)
  else .error (.misuse .outOfMemory)

/-- Accepts a segment of the expected length. -/
def segment {β : Type} (name : String) (values : Array β) (expected : Nat) :
    Except EngineError (Vector β expected) :=
  if fits : values.size = expected then .ok ⟨values, fits⟩
  else .error (.segmentLength name expected values.size)

/-- Accepts room of the expected length. -/
def room (name : String) (actual expected : Nat) : Except EngineError Unit :=
  if actual = expected then .ok () else .error (.segmentLength name expected actual)

/-- Accepts a damping factor that is shared or has one value per layer. -/
def dampingSegment (name : String) (damping : Damping α (Array α)) (expected : Nat) :
    Except EngineError (Damping α (Vector α expected)) :=
  match damping with
  | .shared value => .ok (.shared value)
  | .perLayer values => .perLayer <$> segment name values expected

/-- Fails if the routine is set up to fail. -/
def checkFailure (s : Solver α) (routine : Routine) : Except EngineError Unit :=
  if s.failure = some routine then .error (.injected routine) else .ok ()

/-- Fails if the deferred min-marginals are not in place. -/
def checkIntact (s : Solver α) : Except EngineError Unit :=
  if s.intact then .ok () else .error (.misuse .deferredLost)

/-- Procedures of a solver. -/
abbrev Work (α β : Type) : Type := Procedure (Event α) (Solver α) EngineError β

/-- Procedures of a solver and of slices lent to it. -/
abbrev LentWork (α δ β : Type) : Type := Procedure (Event α) (Lent (Solver α) δ) EngineError β

end Solver

end DualAscent
