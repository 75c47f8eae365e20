import DualAscent.Ascent.Trend
import DualAscent.Proofs.Ascent.Run
import Mathlib.Logic.Basic

/-!
# What a run remembers

A run keeps the costs before its trailing steps, as many as its window is long or as it has made.
Together with the current costs they are the sequence that plain steps pass through, so that every
summary of them is a formula in the costs after so many steps.
-/

namespace DualAscent

variable {α : Type}

theorem changes_cons_cons [Sub α] (before after : α) (rest : List α) :
    changes (before :: after :: rest) = (after - before) :: changes (after :: rest) := rfl

/-- The differences of a sequence that is given by a formula. -/
theorem changes_map_range' [Sub α] (value : Nat → α) (start count : Nat) :
    changes ((List.range' start (count + 1)).map value) =
      (List.range' start count).map fun t => value (t + 1) - value t := by
  induction count generalizing start with
  | zero => rfl
  | succ count ih =>
      simp only [List.range'_succ, List.map_cons] at ih ⊢
      rw [changes_cons_cons, ih]

/-- The mean difference of a sequence that is given by a formula depends on its ends only. -/
theorem meanChange_map_range' [Scalar α] [Zero α] [Sub α] (value : Nat → α) (start count : Nat) :
    meanChange ((List.range' start count).map value) =
      if count < 2 then 0
      else Scalar.div (value (start + (count - 1)) - value start) (Scalar.ofNat (count - 1)) := by
  obtain _ | _ | count := count
  · rfl
  · rfl
  · have last : ((List.range' (start + 1) (count + 1)).map value).getLast? =
        some (value (start + (count + 1))) := by
      rw [List.getLast?_map, List.getLast?_range', if_neg (Nat.succ_ne_zero count),
        Option.map_some, show start + 1 + (count + 1) - 1 = start + (count + 1) by omega]
    rw [List.range'_succ, List.map_cons, meanChange, last, if_neg (by omega), List.length_map,
      List.length_range', Nat.add_sub_cancel]

namespace Ascent

variable {slots n chains : Nat} [Scalar α] [Zero α] [Add α] [Sub α] [Mul α]
  {a : Ascent α slots n} {c : Costs (Vector α n)} {p : Progress α n} {window : Nat}

/-- A run from the costs `c` on has the costs before its trailing steps at hand. -/
structure Remembers (a : Ascent α slots n) (c : Costs (Vector α n)) (window : Nat)
    (p : Progress α n) : Prop where
  current : p.current = a.after p.steps c
  earlier : p.earlier.take window = (a.trace p.steps c).reverse.take window

theorem remembers_start (a : Ascent α slots n) (c : Costs (Vector α n)) (window : Nat) :
    a.Remembers c window (Progress.start c) :=
  ⟨rfl, rfl⟩

private theorem take_cons_congr {β : Type} {values values' : List β} {count : Nat}
    (same : values.take count = values'.take count) (newest : β) :
    (newest :: values).take count = (newest :: values').take count := by
  cases count with
  | zero => rfl
  | succ count =>
      have shorter := congrArg (List.take count) same
      rw [List.take_take, List.take_take, Nat.min_eq_left (Nat.le_succ count)] at shorter
      rw [List.take_succ_cons, List.take_succ_cons, shorter]

theorem Remembers.advance (remembers : a.Remembers c window p) :
    a.Remembers c window (a.advance window p).1 := by
  constructor
  · rw [advance_current, advance_steps, after_succ, remembers.current]
  · show (forget window (p.steps + 1) (p.current :: p.earlier)).take window = _
    rw [take_forget, advance_steps, trace_add, remembers.current]
    show _ = ((a.trace p.steps c ++ [a.after p.steps c]).reverse).take window
    rw [List.reverse_concat]
    exact take_cons_congr remembers.earlier _

theorem remembers_run [Neg α] (a : Ascent α slots n) (c : Costs (Vector α n)) (rule : StopRule α)
    (limit : Nat) : a.Remembers c rule.window (a.run rule limit (Progress.start c)).1 :=
  run_induction (fun _ remembers => remembers.advance) limit (a.remembers_start c rule.window)

omit [Scalar α] in
/-- The trailing costs are those that the last steps pass through. -/
theorem Remembers.series_eq (remembers : a.Remembers c window p) :
    p.series window =
      (List.range' (p.steps - min window p.steps) (min window p.steps + 1)).map
        fun t => a.after t c := by
  have trace : a.trace p.steps c = (List.range' 0 p.steps).map fun t => a.after t c :=
    a.trace_after 0 p.steps c
  have skipped : p.steps - window = p.steps - min window p.steps := by omega
  have kept : p.steps - (p.steps - window) = min window p.steps := by omega
  have last : p.steps - min window p.steps + min window p.steps = p.steps := by omega
  rw [Progress.series, remembers.earlier, remembers.current, List.reverse_cons, trace,
    List.take_reverse, List.reverse_reverse, List.length_map, List.length_range', ← List.map_drop,
    List.drop_range', Nat.mul_one, Nat.zero_add, kept, skipped, List.range'_1_concat, last,
    List.map_append]
  rfl

/-- The average starts with the solution after the first trailing step. -/
theorem Remembers.averageSolution_eq (remembers : a.Remembers c window p) (decay : α) :
    p.averageSolution window decay =
      let kept := min window p.steps
      if kept = 0 then (a.after p.steps c).solution
      else
        (List.range' (p.steps - kept + 2) (kept - 1)).foldl
          (fun average t => blend decay average (a.after t c).solution)
          (a.after (p.steps - kept + 1) c).solution := by
  rw [Progress.averageSolution, remembers.series_eq, remembers.current, ← List.map_tail,
    List.tail_range', List.map_map, Nat.add_sub_cancel]
  dsimp only
  generalize p.steps - min window p.steps = start
  generalize min window p.steps = kept
  cases kept with
  | zero => rfl
  | succ kept =>
      rw [List.range'_succ, List.map_cons, if_neg (Nat.succ_ne_zero kept), Nat.add_sub_cancel]
      exact List.foldl_map

/-- The mean change of a chain's bound, and the mean change of that change, in terms of the bounds
after so many steps. -/
theorem Remembers.trend_eq (remembers : a.Remembers c window p) (chainOf : Vector (Fin chains) n)
    (decay : α) :
    let r := p.steps
    let kept := min window r
    let bound (t : Nat) (chain : Fin chains) := ((a.after t c).boundsBy chainOf).get chain
    p.trend window chainOf decay =
      { average := (p.averageSolution window decay).toArray
        first := Array.ofFn fun chain =>
          if kept = 0 then 0
          else Scalar.div (bound r chain - bound (r - kept) chain) (Scalar.ofNat kept)
        second := Array.ofFn fun chain =>
          if kept < 2 then 0
          else
            Scalar.div ((bound r chain - bound (r - 1) chain) -
              (bound (r - kept + 1) chain - bound (r - kept) chain))
                (Scalar.ofNat (kept - 1)) } := by
  intro r kept bound
  have within : kept ≤ r := Nat.min_le_right window r
  have ofChain : ∀ chain : Fin chains,
      ((p.series window).map (·.boundsBy chainOf)).map (fun values => values.get chain) =
        (List.range' (r - kept) (kept + 1)).map fun t => bound t chain := by
    intro chain
    rw [remembers.series_eq, List.map_map, List.map_map]
    rfl
  simp only [Progress.trend, ofChain]
  refine congrArg₂ (Trend.mk _) (congrArg Array.ofFn (funext fun chain => ?_))
    (congrArg Array.ofFn (funext fun chain => ?_))
  · rw [meanChange_map_range', Nat.add_sub_cancel, Nat.sub_add_cancel within]
    exact if_congr (by omega) rfl rfl
  · rw [changes_map_range', meanChange_map_range']
    by_cases short : kept < 2
    · rw [if_pos short, if_pos short]
    · have last : r - kept + (kept - 1) = r - 1 := by omega
      rw [if_neg short, if_neg short, last, Nat.sub_add_cancel (by omega)]

end Ascent

end DualAscent
