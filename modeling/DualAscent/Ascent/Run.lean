import DualAscent.Ascent.Step

/-!
Runs of a dual ascent. A run makes steps until its limit, or until the lower bound hardly
improves any more compared with the first step. It remembers the costs of the trailing steps, so
that they can be summarised afterwards. Main statement: forgetting older costs leaves the trailing
ones as they are.
-/

namespace DualAscent

/-- Forgets what is outside a window over a sequence, the newest value first. It does so only at
counts that are multiples of the window's length, so that most steps of a run cost nothing. -/
def forget {β : Type} (window count : Nat) (values : List β) : List β :=
  if count % max window 1 = 0 then values.take window else values

@[simp]
theorem take_forget {β : Type} (window count : Nat) (values : List β) :
    (forget window count values).take window = values.take window := by
  rw [forget]
  split
  · rw [List.take_take, Nat.min_self]
  · rfl

/-- Where a run stands. -/
structure Progress (α : Type) (n : Nat) where
  /-- Steps made. -/
  steps : Nat
  /-- Costs after those steps. -/
  current : Costs (Vector α n)
  /-- Costs before them, the newest first, at least as far back as needed. -/
  earlier : List (Costs (Vector α n))
  /-- Total lower bound of the current costs. -/
  bound : α
  /-- Improvement of the lower bound by the first step. -/
  first : Option α

/-- When a run ends and what it remembers. -/
structure StopRule (α : Type) where
  /-- A step ends the run if it improves at most this share of what the first step did. -/
  slope : α
  /-- Number of trailing steps to remember. -/
  window : Nat

namespace Progress

variable {α : Type} {n : Nat}

/-- A run that has not made a step. -/
def start [Scalar α] [Zero α] [Add α] (c : Costs (Vector α n)) : Progress α n where
  steps := 0
  current := c
  earlier := []
  bound := c.bound
  first := none

/-- The current costs and those before the trailing steps, from the oldest on. -/
def series (p : Progress α n) (window : Nat) : List (Costs (Vector α n)) :=
  (p.current :: p.earlier.take window).reverse

end Progress

namespace StopRule

variable {α : Type} [Scalar α] [Zero α] [Neg α] [Mul α]

/-- An improvement that ends the run; the first step never does, nor does a slope that is not
positive. -/
def settles (rule : StopRule α) (first : Option α) (improvement : α) : Bool :=
  match first with
  | none => false
  | some initial =>
    Scalar.lt 0 rule.slope && Scalar.le improvement (rule.slope * Scalar.abs initial)

end StopRule

namespace Ascent

variable {α : Type} {slots n : Nat} [Scalar α] [Zero α] [Add α] [Sub α] [Mul α] [Neg α]

/-- One step of a run, with the improvement of the lower bound that it made. -/
def advance (a : Ascent α slots n) (window : Nat) (p : Progress α n) : Progress α n × α :=
  let next := a.step p.current
  let bound := next.bound
  let improvement := bound - p.bound
  ({ steps := p.steps + 1
     current := next
     earlier := forget window (p.steps + 1) (p.current :: p.earlier)
     bound
     first := some (p.first.getD improvement) }, improvement)

/-- Makes at most `limit` further steps. The second component is the improvement that ended the
run before its limit, if one did. -/
def run (a : Ascent α slots n) (rule : StopRule α) :
    (limit : Nat) → Progress α n → Progress α n × Option α
  | 0, p => (p, none)
  | limit + 1, p =>
    let (next, improvement) := a.advance rule.window p
    if rule.settles p.first improvement then (next, some improvement)
    else a.run rule limit next

end Ascent

end DualAscent
