import DualAscent.Faulty
import DualAscent.Journal
import DualAscent.Session
import DualAscent.Solver.Engine
import DualAscent.Proofs.Ascent.Energy
import DualAscent.Proofs.Ascent.Run
import DualAscent.Proofs.Procedure
import DualAscent.Proofs.Solver.Iterate
import DualAscent.Proofs.Solver.Reparametrisation
import DualAscent.Proofs.Ascent.FirstOrder
import DualAscent.Proofs.Ascent.Adjoint
import DualAscent.Proofs.Batch.Walk
import DualAscent.Proofs.Operation.Descend
import DualAscent.Proofs.Solver.Adjoint
import DualAscent.Proofs.Operation.Adjoint
import DualAscent.Proofs.Alike
import DualAscent.Proofs.Batch.Place
import DualAscent.Proofs.Operation.Call
import DualAscent.Proofs.Operation.Whole
import DualAscent.Proofs.Batch.Carry
import DualAscent.Proofs.Operation.Carried
import DualAscent.Proofs.Operation.Cut
import DualAscent.Proofs.Solver.Room
import DualAscent.Proofs.Operation.Parts
import DualAscent.Proofs.Operation.Each
import DualAscent.Proofs.Solver.Ledger
import DualAscent.Proofs.Batch.View
import DualAscent.Proofs.Operation.Ledger
import DualAscent.Proofs.Operation.Recorded
import DualAscent.Proofs.Session.Account
import DualAscent.Proofs.Session.Order
import DualAscent.Proofs.Solver.Checkpoints
import DualAscent.Proofs.Ascent.Rounding
import DualAscent.Proofs.Solver.Rounding
import DualAscent.Proofs.Agree
import DualAscent.Proofs.Solver.Standing
import DualAscent.Proofs.Operation.Standing
import DualAscent.Proofs.Session.History
import DualAscent.Proofs.Ascent.Chain
import DualAscent.Proofs.Operation.Share
import DualAscent.Proofs.Operation.Climb
import DualAscent.Proofs.Operation.Descent
import DualAscent.Proofs.Operation.Chain
import DualAscent.Proofs.Ascent.Decay
import DualAscent.Proofs.Solver.Decay
import DualAscent.Proofs.Ascent.Agreement
import DualAscent.Proofs.Solver.Agreement
import DualAscent.Proofs.Ascent.Spread
import DualAscent.Proofs.Operation.Spread
import DualAscent.Proofs.Operation.Copies
import DualAscent.Proofs.Batch.Course
import DualAscent.Proofs.Operation.Course
import DualAscent.Proofs.Session.Aftermath
import DualAscent.Proofs.Ascent.Certificate
import DualAscent.Proofs.Solver.Certificate
import DualAscent.Proofs.Supergradient
import DualAscent.Proofs.Batch.Family
import DualAscent.Proofs.Operation.Bounds
import DualAscent.Proofs.Operation.Supergradient
import DualAscent.Proofs.Contagion
import DualAscent.Proofs.Ascent.Contagion
import DualAscent.Proofs.Solver.Contagion
import DualAscent.Proofs.Operation.Contagion
import DualAscent.Proofs.Session.Records
import DualAscent.Proofs.Session.Contagion
import DualAscent.Proofs.Violations
import DualAscent.Proofs.Solver.Requests
import DualAscent.Proofs.Operation.Excuses
import DualAscent.Proofs.Operation.Acceptance
import DualAscent.Proofs.Session.Fitting
import DualAscent.Proofs.Session.Cuts
import DualAscent.Proofs.Session.Acceptance
import DualAscent.Proofs.Ascent.EarlyStop
import DualAscent.Proofs.Solver.EarlyStop
import DualAscent.Proofs.Ascent.Trend
import DualAscent.Proofs.Solver.Trend
import DualAscent.Proofs.Ascent.Conservation
import DualAscent.Proofs.Solver.Conservation
import DualAscent.Proofs.Operation.Answers
import DualAscent.Proofs.Operation.Formulas
import DualAscent.Proofs.Transpose
import DualAscent.Proofs.Operation.Transpose
import DualAscent.Proofs.Solver.Served
import DualAscent.Proofs.Solver.Books
import DualAscent.Proofs.Diagrams
import DualAscent.Proofs.Solver.Upkeep
import DualAscent.Proofs.Solver.Reading
import DualAscent.Proofs.Operation.Reading
import DualAscent.Proofs.Single
import DualAscent.Proofs.Ascent.Choices
import DualAscent.Proofs.Operation.Choices
import DualAscent.Proofs.Session.Origin
import DualAscent.Proofs.Session.Recognition
import DualAscent.Proofs.Session.Layouts
import DualAscent.Proofs.Buffer
