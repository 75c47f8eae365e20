import DualAscent.Ascent.Step
import DualAscent.Settings

/-!
Primal rounding. Layers of the same variable that prefer different branches are pushed towards
the branch that the variable prefers as a whole, with growing pushes and dual iterations in
between, until all layers of every variable agree.
-/

namespace DualAscent

/-- Layers of each slot, and how many of them take the high branch. -/
structure Votes (slots : Nat) where
  /-- Number of layers. -/
  cast : Vector Nat slots
  /-- Number of layers that take the high branch. -/
  high : Vector Nat slots

namespace Votes

variable {slots : Nat}

/-- The layers of the slot take different branches. -/
def disagree (votes : Votes slots) (slot : Fin slots) : Bool :=
  0 < votes.high.get slot && votes.high.get slot < votes.cast.get slot

/-- Some layer of the slot takes the high branch. -/
def someHigh (votes : Votes slots) (slot : Fin slots) : Bool := 0 < votes.high.get slot

end Votes

/-- How many rounds of pushes rounding makes before it gives up. -/
def mostRounds : Nat := 100

namespace Ascent

variable {α : Type} {primals n : Nat} [Scalar α] [Zero α] [Add α] [Sub α] [Mul α]

/-- Counts the branch choices of every slot's layers. -/
def votes (a : Ascent α (primals + 1) n) (c : Costs (Vector α n)) : Votes (primals + 1) where
  cast := countBy a.slotOf fun _ => true
  high := countBy a.slotOf c.takesHigh

/-- The layers of every variable agree; the terminal slot does not count. -/
def agrees (votes : Votes (primals + 1)) : Bool :=
  (List.finRange primals).all fun v => !votes.disagree v.castSucc

/-- Raises, for every layer of a variable whose layers disagree, the cost of the branch that the
variable does not prefer as a whole. -/
def push (a : Ascent α (primals + 1) n) (votes : Votes (primals + 1)) (delta : α)
    (c : Costs (Vector α n)) : Costs (Vector α n) :=
  let sums := a.slotSums c
  let disputed (l : Fin n) : Bool :=
    a.slotOf.get l ≠ Fin.last primals && votes.disagree (a.slotOf.get l)
  let prefersHigh (l : Fin n) : Bool := Scalar.lt (sums.get (a.slotOf.get l)) 0
  { lo := Vector.ofFn fun l =>
      if disputed l && prefersHigh l then c.lo.get l + delta else c.lo.get l
    hi := Vector.ofFn fun l =>
      if disputed l && !prefersHigh l then c.hi.get l + delta else c.hi.get l
    deferred := c.deferred }

/-- Rounds of pushes until agreement, at most `limit` more of them. Answers with the costs left
behind and, after agreement, the result. -/
def roundFrom (a : Ascent α (primals + 1) n) (settings : RoundingSettings α) :
    (limit round : Nat) → (delta : α) → Costs (Vector α n) →
      Costs (Vector α n) × Option (Rounding α)
  | 0, _, _, c => (c, none)
  | limit + 1, round, delta, c =>
    let votes := a.votes c
    if agrees votes then
      (c, some
        { assignment := (List.finRange primals).map fun v => votes.someHigh v.castSucc
          rounds := round
          bound := c.bound })
    else
      a.roundFrom settings limit (round + 1) (delta * settings.growth)
        (a.after settings.iterations (a.push votes delta c))

end Ascent

end DualAscent
