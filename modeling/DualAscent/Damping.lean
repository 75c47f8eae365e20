/-!
Damping factors. A dual step is damped either by one factor for all layers or by one per layer,
and a gradient with respect to it has one of the same two shapes.
-/

namespace DualAscent

/-- A damping factor: one for all layers, or one per layer. -/
inductive Damping (α τ : Type) where
  /-- One value for all layers. -/
  | shared (value : α)
  /-- One value per layer. -/
  | perLayer (values : τ)
deriving DecidableEq

/-- Applies a function to the container of a damping factor per layer. -/
def Damping.map {α τ υ : Type} (f : τ → υ) : Damping α τ → Damping α υ
  | .shared value => .shared value
  | .perLayer values => .perLayer (f values)

namespace Damping

variable {α : Type} {n : Nat}

/-- The factor of a layer, if there is one. -/
def at? (damping : Damping α (Array α)) (layer : Nat) : Option α :=
  match damping with
  | shared value => some value
  | perLayer values => values[layer]?

/-- Adds to the entry of a layer, if there is one. -/
def add? [Add α] (damping : Damping α (Array α)) (layer : Nat) (amount : α) :
    Option (Damping α (Array α)) :=
  match damping with
  | shared value => some (.shared (value + amount))
  | perLayer values =>
    if inside : layer < values.size then
      some (.perLayer (values.set layer (values[layer] + amount)))
    else none

/-- The value if it is shared by all layers. -/
def shared? {τ : Type} : Damping α τ → Option α
  | shared value => some value
  | perLayer _ => none

/-- The factor as a flat array: one element, or one per layer. -/
def toArray (damping : Damping α (Array α)) : Array α :=
  match damping with
  | shared value => #[value]
  | perLayer values => values

/-- The factor of a layer. -/
def factor (damping : Damping α (Vector α n)) (layer : Fin n) : α :=
  match damping with
  | shared value => value
  | perLayer values => values.get layer

@[simp]
theorem factor_shared (value : α) (layer : Fin n) :
    (shared value : Damping α (Vector α n)).factor layer = value := rfl

@[simp]
theorem factor_perLayer (values : Vector α n) (layer : Fin n) :
    (perLayer values).factor layer = values.get layer := rfl

/-- Adds one amount per layer: all of them to a shared value in layer order, or each to its own. -/
def accumulate [Add α] (damping : Damping α (Vector α n)) (amounts : Vector α n) :
    Damping α (Vector α n) :=
  match damping with
  | shared value => .shared (amounts.foldl (· + ·) value)
  | perLayer values => .perLayer (values.zipWith (· + ·) amounts)

end Damping

end DualAscent
