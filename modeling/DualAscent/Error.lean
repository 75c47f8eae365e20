import DualAscent.Buffer
import DualAscent.Decimal.Positional
import DualAscent.ReplayWindow
import DualAscent.Routine
import DualAscent.Segment.Layout
import DualAscent.Settings

/-!
What can go wrong, as causes, and the one place that words them.
-/

namespace DualAscent

/-- Violated preconditions, which no operation recovers from. -/
inductive Misuse where
  /-- A diagram mentions a variable that does not exist. -/
  | variableOutOfRange (index primals : Nat)
  /-- A strided view has stride zero. -/
  | zeroStride
  /-- An index lies past the end of a sequence. -/
  | indexOutOfRange
  /-- More memory is asked for than an array can take. -/
  | outOfMemory
  /-- The deferred min-marginals are needed after a run that broke off has taken them along. -/
  | deferredLost
deriving DecidableEq

/-- A failure inside an engine routine. -/
inductive EngineError where
  /-- A replay of `skip + tracked` iterations does not repeat the latest run of `run`. -/
  | inconsistentReplay (skip tracked run : Nat)
  /-- A segment has the wrong number of elements. -/
  | segmentLength (segment : String) (expected actual : Nat)
  /-- The routine was set up to fail. -/
  | injected (routine : Routine)
  /-- Rounding gave up without agreement. -/
  | noAgreement (rounds : Nat)
  /-- A precondition is violated. -/
  | misuse (cause : Misuse)
  /-- Any other failure, in its own words. -/
  | native (text : String)
deriving DecidableEq

/-- What a batched operation was doing when an engine failed. -/
inductive Context (α : Type) where
  /-- Running up to this many iterations. -/
  | run (iterations : Nat)
  /-- Replaying a run. -/
  | replay (window : ReplayWindow)
  /-- Working on these segments. -/
  | segments (place : Place)
  /-- Rounding with these settings. -/
  | rounding (settings : RoundingSettings α)

/-- Failures of batched operations. -/
inductive Error (α : Type) where
  /-- A buffer is not densely packed in single precision. -/
  | format (buffer : String) (fault : FormatFault)
  /-- A buffer has the wrong length. -/
  | shape (buffer : String) (expected actual : Nat)
  /-- The segments of the batch do not cover a buffer. -/
  | layoutMismatch (kind : Segmentation) (total length : Nat)
  /-- A solver no longer has the sizes on record. -/
  | batchChanged (solver : Nat)
  /-- A solver's engine failed. -/
  | engine (solver : Nat) (routine : Routine) (context : Context α) (source : EngineError)
  /-- A gradient holds infinite or undefined values. -/
  | nonFinite (gradient : String) (count length : Nat)
  /-- A precondition is violated. -/
  | misuse (cause : Misuse)

/-- Names the precondition that was violated; some have no words. -/
def Misuse.message : Misuse → String
  | variableOutOfRange index primals =>
    "Variable " ++ toString index ++ " out of range 0.." ++ toString primals
  | zeroStride => "Stride must be positive"
  | indexOutOfRange => ""
  | outOfMemory => ""
  | deferredLost => ""

/-- Says what the engine found. -/
def EngineError.message : EngineError → String
  | inconsistentReplay skip tracked run =>
    "replay of " ++ toString skip ++ " + " ++ toString tracked
      ++ " iterations does not match the " ++ toString run ++ " iterations run"
  | segmentLength segment expected actual =>
    "segment `" ++ segment ++ "` has " ++ toString actual ++ " elements, expected "
      ++ toString expected
  | injected routine => "injected failure in " ++ routine.name
  | noAgreement rounds =>
    "primal rounding did not converge after " ++ toString rounds ++ " rounds"
  | misuse cause => cause.message
  | native text => text

/-- Says what was going on. -/
def Context.text : Context Float32 → String
  | run iterations => "num_iterations: " ++ toString iterations
  | replay window => window.text
  | segments place => place.text
  | rounding settings =>
    "init_delta: " ++ Decimal.text settings.delta
      ++ ", delta_growth_rate: " ++ Decimal.text settings.growth
      ++ ", num_itr_lb: " ++ toString settings.iterations

namespace Error

/-- Words an engine failure from the texts of its parts. -/
def engineMessage (solver : Nat) (routine context source : String) : String :=
  "solver " ++ toString solver ++ " failed in `" ++ routine ++ "` (" ++ context ++ "): " ++ source

/-- Says what failed and where. -/
def message : Error Float32 → String
  | format buffer fault => "buffer `" ++ buffer ++ "`: " ++ fault.message
  | shape buffer expected actual =>
    "buffer `" ++ buffer ++ "` has length " ++ toString actual ++ ", expected "
      ++ toString expected
  | layoutMismatch kind total length =>
    kind.noun ++ " segments of the batch sum to " ++ toString total
      ++ ", but the buffer has length " ++ toString length
  | batchChanged solver =>
    "solver " ++ toString solver ++ " no longer matches the recorded batch layout"
  | engine solver routine context source =>
    engineMessage solver routine.name context.text source.message
  | nonFinite gradient count length =>
    "gradient `" ++ gradient ++ "` has " ++ toString count ++ " non-finite values out of "
      ++ toString length
  | misuse cause => cause.message

end Error

end DualAscent
