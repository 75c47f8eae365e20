import DualAscent.Proofs.Operation.Copies
import DualAscent.Session

/-!
# Records of forward passes

A record names the sizes of the batch that left it.  It may come back to another batch, but it was
not made up.
-/

namespace DualAscent

open Procedure

variable {α : Type} [Scalar α] [Zero α] [Add α] [Sub α] [Mul α] [Neg α]

/-- Some batch has left this record in a forward pass. -/
inductive Record.Made : Record α → Prop
  /-- In a dual ascent. -/
  | ascent {b : Batch (Solver α)} {inputs : Inputs α (Buffer α)} {settings : AscentSettings α}
      {ascended : Ascended α} {record : AscentRecord α}
      (ok : ((Operation.ascend inputs settings).run b).result = .ok (ascended, record)) :
      Made (.ascent record)
  /-- In a redistribution. -/
  | redistribution {b : Batch (Solver α)} {costs : Costs (Buffer α)}
      {answer : Costs (Array α)} {record : Saved (Costs (Array α))}
      (ok : ((Operation.redistribute costs).run b).result = .ok (answer, record)) :
      Made (.redistribution record)
  /-- When min-marginal differences were computed. -/
  | minMarginals {b : Batch (Solver α)} {branches : Branches (Buffer α)} {answer : Array α}
      {record : Saved (Branches (Array α))}
      (ok : ((Operation.minMarginals branches).run b).result = .ok (answer, record)) :
      Made (.minMarginals record)
  /-- In a perturbation. -/
  | perturbation {b : Batch (Solver α)} {inputs : Perturbed (Buffer α)}
      {answer : Branches (Array α)} {record : Saved (Perturbed (Array α))}
      (ok : ((Operation.perturb inputs).run b).result = .ok (answer, record)) :
      Made (.perturbation record)
  /-- When lower bounds were computed. -/
  | bounds {b : Batch (Solver α)} {branches : Branches (Buffer α)} {answer : Array α}
      {record : Saved (Branches (Array α))}
      (ok : ((Operation.lowerBounds branches).run b).result = .ok (answer, record)) :
      Made (.bounds record)

/-- A dual ascent has put a run of every solver on record. -/
theorem Record.Made.length_realized {record : AscentRecord α} (made : (Record.ascent record).Made) :
    record.realized.length = record.sizes.length := by
  cases made with
  | ascent ok =>
      have belongs := Operation.Belongs.of_ascend ok
      rw [belongs.runs, ← belongs.sizes, Batch.sizes, List.length_map]

end DualAscent
