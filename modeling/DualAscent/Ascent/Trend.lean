import DualAscent.Ascent.Run

/-!
Summaries of the trailing steps of a run: an exponential average of the branch choices, and the
mean first and second differences of every chain's lower bound.
-/

namespace DualAscent

variable {α : Type}

/-- Differences of neighbours in a sequence. -/
def changes [Sub α] (values : List α) : List α :=
  values.zipWith (fun before after => after - before) values.tail

/-- Mean difference of neighbours in a sequence; zero if there are none. -/
def meanChange [Scalar α] [Zero α] [Sub α] : List α → α
  | [] => 0
  | first :: rest =>
    match rest.getLast? with
    | none => 0
    | some last => Scalar.div (last - first) (Scalar.ofNat rest.length)

/-- Moves an average towards a new value; `decay` is the weight of the past. -/
def blend [Scalar α] [Add α] [Sub α] [Mul α] {n : Nat} (decay : α) (average value : Vector α n) :
    Vector α n :=
  Vector.ofFn fun l => decay * average.get l + (Scalar.one - decay) * value.get l

namespace Progress

variable {n chains : Nat} [Scalar α] [Zero α] [Add α]

/-- The branch choices after the trailing steps, averaged from the oldest on; the current ones if
there is no such step. -/
def averageSolution [Sub α] [Mul α] (p : Progress α n) (window : Nat) (decay : α) : Vector α n :=
  match (p.series window).tail.map Costs.solution with
  | [] => p.current.solution
  | oldest :: newer => newer.foldl (blend decay) oldest

/-- The summary of the trailing steps. -/
def trend [Sub α] [Mul α] (p : Progress α n) (window : Nat) (chainOf : Vector (Fin chains) n)
    (decay : α) : Trend (Array α) :=
  let bounds := (p.series window).map (·.boundsBy chainOf)
  let ofChain (b : Fin chains) : List α := bounds.map fun values => values.get b
  { average := (p.averageSolution window decay).toArray
    first := Array.ofFn fun b => meanChange (ofChain b)
    second := Array.ofFn fun b => meanChange (changes (ofChain b)) }

end Progress

end DualAscent
