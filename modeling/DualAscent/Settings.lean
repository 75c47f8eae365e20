import DualAscent.Scalar

/-!
Settings of a dual ascent run and of primal rounding.
-/

namespace DualAscent

/-- How long a dual ascent runs and what it records. -/
structure AscentSettings (α : Type) where
  /-- Most iterations per solver. -/
  iterations : Nat
  /-- Most trailing iterations that carry gradients. -/
  tracked : Nat
  /-- A solver stops once its improvement falls to this share of the first one. -/
  slope : α
  /-- Most states kept at once for the reverse sweep. -/
  caches : Nat
  /-- Trailing iterations to summarise; none if zero. -/
  window : Nat
  /-- Weight of the past in the averaged solution. -/
  decay : α
deriving BEq

namespace AscentSettings

variable {α : Type}

/-- The settings with another iteration count. -/
def withIterations (settings : AscentSettings α) (iterations : Nat) : AscentSettings α :=
  { settings with iterations }

/-- The settings with another number of iterations that carry gradients. -/
def withTracked (settings : AscentSettings α) (tracked : Nat) : AscentSettings α :=
  { settings with tracked }

/-- The settings that summarise a trailing window with the given weight of the past. -/
def withWindow (settings : AscentSettings α) (window : Nat) (decay : α) : AscentSettings α :=
  { settings with window, decay }

/-- The trailing iterations are summarised. -/
def summarises (settings : AscentSettings α) : Bool := 0 < settings.window

/-- Twenty iterations, five of them with gradients, and no summary. -/
def standard : AscentSettings Float32 where
  iterations := 20
  tracked := 5
  slope := 1e-6
  caches := 5
  window := 0
  decay := 0.9

end AscentSettings

/-- How primal rounding pushes variables towards agreement. -/
structure RoundingSettings (α : Type) where
  /-- First push. -/
  delta : α
  /-- Factor by which the push grows from round to round. -/
  growth : α
  /-- Dual iterations between two rounds. -/
  iterations : Nat
deriving BEq

namespace RoundingSettings

/-- Pushes start at one and grow by a fifth, with five hundred iterations in between. -/
def standard : RoundingSettings Float32 where
  delta := 1.0
  growth := 1.2
  iterations := 500

end RoundingSettings

end DualAscent
