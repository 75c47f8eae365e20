import DualAscent.Check
import DualAscent.Request

/-!
Batches of solvers. A batch freezes the order of its solvers and the sizes they had when it was
formed. All batched operations go through the solvers by one traversal, `visit`: it hands every
solver its share of the work, in order, and stops at the first failure.
-/

namespace DualAscent

/-- A solver of a batch. -/
structure Member (σ : Type) where
  /-- The solver. -/
  solver : σ
  /-- Its sizes when the batch was formed. -/
  frozen : Sizes

/-- Solvers in a fixed order. -/
structure Batch (σ : Type) where
  /-- The solvers with their frozen sizes. -/
  members : List (Member σ)

namespace Batch

variable {α σ : Type}

/-- The batch of these solvers, with the sizes that they report now. -/
def ofSolvers [Engine α σ] (solvers : List σ) : Batch σ :=
  ⟨solvers.map fun solver => ⟨solver, Engine.sizes solver⟩⟩

/-- The solvers in order. -/
def solvers (b : Batch σ) : List σ := b.members.map (·.solver)

/-- The frozen sizes in order. -/
def sizes (b : Batch σ) : List Sizes := b.members.map (·.frozen)

/-- Number of solvers. -/
def length (b : Batch σ) : Nat := b.members.length

/-- There is no solver. -/
def isEmpty (b : Batch σ) : Bool := b.members.isEmpty

/-- A solver by its position. -/
def solver? (b : Batch σ) (i : Nat) : Option σ := b.solvers[i]?

/-- Puts another solver in the place of one, whose frozen sizes stay. -/
def replace? (b : Batch σ) (i : Nat) (solver : σ) : Option (Batch σ) :=
  (b.members[i]?).map fun member => ⟨b.members.set i { member with solver }⟩

/-- A new batch: some of these solvers in a given order, and then further ones. Positions that
do not exist or are named again are passed over. -/
def regroup [Engine α σ] (b : Batch σ) (keep : List Nat) (added : List σ) : Batch σ :=
  ofSolvers (keep.eraseDups.filterMap b.solver? ++ added)

/-- Length of a flat array with a segment for every solver. -/
def total (b : Batch σ) (kind : Segmentation) : Nat :=
  b.sizes.foldl (fun sum sizes => sum + sizes.segment kind) 0

/-- Number of solvers and the totals of their sizes. -/
def summary (b : Batch σ) : String :=
  "Batch \x7b len: " ++ toString b.length ++ ", layers: " ++ toString (b.total .layer)
    ++ ", bdds: " ++ toString (b.total .bdd) ++ ", variables: " ++ toString (b.total .slot)
    ++ " \x7d"

/-- Accepts the batch if all its solvers still report their frozen sizes. -/
def ensureStable [Engine α σ] (b : Batch σ) : Except (Error α) Unit :=
  match b.members.findIdx? fun member => Engine.sizes member.solver ≠ member.frozen with
  | some i => .error (.batchChanged i)
  | none => .ok ()

/-- Accepts the batch if its frozen sizes are the recorded ones and its solvers still report
them. -/
def ensureMatches [Engine α σ] (b : Batch σ) (recorded : List Sizes) : Except (Error α) Unit :=
  if b.length ≠ recorded.length then .error (.batchChanged (min b.length recorded.length))
  else
    match (b.sizes.zip recorded).findIdx? fun (frozen, before) => frozen ≠ before with
    | some i => .error (.batchChanged i)
    | none => b.ensureStable

/-- Procedures of a batch. -/
abbrev Work (α σ β : Type) : Type := Procedure (Event α) (Batch σ) (Error α) β

/-- The layout of a flat array of the given length, whose segments have to cover it. -/
def resolve [Engine α σ] (kind : Segmentation) (length : Nat) : Work α σ Layout := do
  let b ← Procedure.read
  Procedure.lift b.ensureStable
  let layout := Layout.ofSizes kind b.sizes
  Procedure.lift (layout.require length)
  Procedure.log (.resolved layout)
  return layout

/-- Hands one solver after the other its share, together with a value that is carried along.
Each solver's procedure starts where the previous ones left the carried value, a failure stops the
traversal, and the results come in order. -/
def walk {Λ ε ι κ β : Type} (work : Nat → ι → κ → Procedure Λ σ ε (κ × β)) :
    (position : Nat) → κ → List ι → List (Member σ) → Outcome Λ (List (Member σ)) ε (κ × List β)
  | position, carry, share :: shares, member :: members =>
    let here := (work position share carry).run member.solver
    let moved : Member σ := { member with solver := here.state }
    match here.result with
    | .error e => ⟨here.events, moved :: members, .error e⟩
    | .ok (carry, value) =>
      let rest := walk work (position + 1) carry shares members
      { events := here.events ++ rest.events
        state := moved :: rest.state
        result := rest.result.map fun (carry, values) => (carry, value :: values) }
  | _, carry, _, members => ⟨[], members, .ok (carry, [])⟩

/-- Goes through all solvers with a carried value. -/
def visitCarrying {Λ ε ι κ β : Type} (carry : κ) (shares : List ι)
    (work : Nat → ι → κ → Procedure Λ σ ε (κ × β)) : Procedure Λ (Batch σ) ε (κ × List β) :=
  fun b =>
    let outcome := walk work 0 carry shares b.members
    ⟨outcome.events, ⟨outcome.state⟩, outcome.result⟩

/-- Goes through all solvers. -/
def visit {Λ ε ι β : Type} (shares : List ι) (work : Nat → ι → Procedure Λ σ ε β) :
    Procedure Λ (Batch σ) ε (List β) := do
  let (_, results) ← visitCarrying () shares fun i share _ => do
    return ((), ← work i share)
  return results

/-- Asks an engine; its failure is reported and handed on with its circumstances. A violated
precondition ends the operation as it is, without a report. -/
def attempt [Zero α] [Engine α σ] {β : Type} (solver : Nat) (context : Context α)
    (request : Request α β) : Procedure (Event α) σ (Error α) β := fun s =>
  let outcome := (Engine.perform request).run s
  match outcome.result with
  | .ok value => ⟨outcome.events, outcome.state, .ok value⟩
  | .error (.misuse cause) => ⟨outcome.events, outcome.state, .error (.misuse cause)⟩
  | .error source =>
    ⟨outcome.events ++ [.engineFailed solver request.routine context source], outcome.state,
      .error (.engine solver request.routine context source)⟩

/-- Calls a routine of one solver directly, if the solver exists. -/
def call? [Engine α σ] {δ β : Type} (b : Batch σ) (i : Nat) (invocation : Invocation α δ β)
    (slices : δ) : Option (Outcome (Event α) (Lent (Batch σ) δ) EngineError β) := do
  let solver ← b.solver? i
  let outcome := (Engine.call invocation).run ⟨solver, slices⟩
  let moved ← b.replace? i outcome.state.engine
  return ⟨outcome.events, ⟨moved, outcome.state.slices⟩, outcome.result⟩

end Batch

/-- The flat array of consecutive segments. -/
def joined {β : Type} (segments : List (Array β)) : Array β := segments.foldr (· ++ ·) #[]

end DualAscent
