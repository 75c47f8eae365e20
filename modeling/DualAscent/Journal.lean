import DualAscent.Event
import DualAscent.GradientStatistics

/-!
The journal: every event as levelled lines of text.
-/

namespace DualAscent

/-- Weight of a journal line, the gravest first. -/
inductive Level where
  /-- A failure. -/
  | error
  /-- Something suspicious. -/
  | warn
  /-- A milestone. -/
  | info
  /-- A detail. -/
  | debug
deriving DecidableEq

namespace Level

/-- Distance from the gravest level. -/
def rank : Level → Nat
  | error => 0
  | warn => 1
  | info => 2
  | debug => 3

/-- The level in capitals. -/
def text : Level → String
  | error => "ERROR"
  | warn => "WARN"
  | info => "INFO"
  | debug => "DEBUG"

/-- At this threshold a line of the given level is kept. -/
def keeps (threshold level : Level) : Bool := level.rank ≤ threshold.rank

end Level

/-- A line of the journal. -/
structure Line where
  /-- Weight of the line. -/
  level : Level
  /-- What it says. -/
  message : String
deriving DecidableEq

/-- The level, a blank and the message. -/
def Line.text (line : Line) : String := line.level.text ++ " " ++ line.message

/-- The words by which an operation announces itself. -/
def Task.text : Task → String
  | ascent => "dual iterations"
  | redistribution => "distribute delta"
  | minMarginals => "min-marginal differences"
  | perturbation => "perturb costs"
  | bounds => "lower bound"
  | rounding => "primal rounding"

/-- Entries that are not finite, large entries and the statistics of a gradient segment. -/
def GradientStatistics.lines (stats : GradientStatistics) (name : String) (solver : Nat) :
    List Line :=
  let whose := "solver " ++ toString solver ++ " / " ++ name
  let undefinedEntries : List Line :=
    if stats.nonFinite = 0 then []
    else [⟨.warn, "NaN gradient in " ++ whose ++ ". Number of NaNs: " ++ toString stats.nonFinite
      ++ " / " ++ toString stats.length⟩]
  let largeEntries : List Line :=
    if stats.isLarge then
      [⟨.warn, "Large gradient in " ++ whose ++ ". min: " ++ Decimal.text stats.min ++ ", max: "
        ++ Decimal.text stats.max ++ "."⟩]
    else []
  undefinedEntries ++ largeEntries ++
    [⟨.debug, whose ++ ": mean = " ++ Decimal.text stats.mean ++ ", std = "
      ++ Decimal.text stats.deviation ++ ", min = " ++ Decimal.text stats.min ++ ", max = "
      ++ Decimal.text stats.max⟩]

/-- The lines that an event leaves in the journal. -/
def Event.lines : Event Float32 → List Line
  | engineFailed solver routine context source =>
    [⟨.error, "Error in " ++ routine.name ++ " (solver " ++ toString solver ++ "): "
      ++ context.text ++ ": " ++ source.message⟩]
  | resolved layout =>
    [⟨.debug, "resolved " ++ layout.kind.noun ++ " layout over " ++ toString layout.spans.length
      ++ " solvers: " ++ bracketed (layout.spans.map Span.text)⟩]
  | visiting task solver place =>
    [⟨.debug, task.text ++ ": solver " ++ toString solver ++ " on " ++ place.text⟩]
  | replaying solver place window =>
    [⟨.debug, "dual iterations backward: solver " ++ toString solver ++ " on " ++ place.text
      ++ ", " ++ window.text⟩]
  | averageGradientIgnored =>
    [⟨.debug, "dual iterations: ignoring gradient of the averaged solution"⟩]
  | ascentFinished requested realized =>
    [⟨.info, "dual iterations: requested " ++ toString requested ++ ", realized "
      ++ bracketed (realized.map toString)⟩]
  | roundingFinished solvers =>
    [⟨.info, "primal rounding finished for " ++ toString solvers ++ " solvers"⟩]
  | gradient name solver values => (GradientStatistics.ofValues values).lines name solver
  | stoppedEarly iterations improvement =>
    [⟨.debug, "early stop after " ++ toString iterations ++ " iterations (improvement "
      ++ Decimal.text improvement ++ ")"⟩]
  | agreed rounds =>
    [⟨.debug, "primal rounding agreed after " ++ toString rounds ++ " rounds"⟩]

/-- The journal of a sequence of events, down to a threshold. -/
def journal (threshold : Level) (events : List (Event Float32)) : List Line :=
  (events.flatMap Event.lines).filter fun line => threshold.keeps line.level

end DualAscent
