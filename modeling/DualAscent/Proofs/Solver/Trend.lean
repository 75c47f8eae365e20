import DualAscent.Proofs.Ascent.Trend
import DualAscent.Proofs.Solver.EarlyStop

/-!
# Summaries of a run

What a solver answers about the trailing steps of a run is a formula in the costs that so many
steps reach.  Apart from that answer a run does not depend on whether it is to be summarised.
-/

namespace DualAscent.Solver

open Procedure

variable {α : Type} [Scalar α] [Zero α] [Add α] [Sub α] [Mul α] [Neg α] {s : Solver α}
  {most : Nat} {slope : α} {request : TrendRequest α} {realized : Realized α}

/-- A request for a summary changes neither what a run does to the solver nor its length. -/
theorem iterate_without_trend (weights : Vector α s.layers)
    (damping : Damping α (Vector α s.layers))
    (ok : ((iterate weights.toArray most (damping.map Vector.toArray) slope (some request)).run
      s).result = .ok realized) :
    (iterate weights.toArray most (damping.map Vector.toArray) slope none).Yields s
      ((iterate weights.toArray most (damping.map Vector.toArray) slope (some request)).run s).state
      ⟨realized.iterations, none⟩ := by
  have roomy : s.checkTrend none = .ok () := rfl
  have plain := yields_iterate weights damping slope roomy (fits_of_iterate ok).2
  have same : (s.finish weights most damping slope none).1.steps = realized.iterations :=
    (endsAfter_of_iterate plain.result).unique (endsAfter_of_iterate ok)
  constructor
  · rw [(iterate_answered weights damping plain.result).2, (iterate_answered weights damping ok).2,
      same]
  · rw [plain.result, same]
    rfl

/-- The summary of a run that answers, in terms of the costs that so many steps reach. -/
theorem trend_of_iterate {weights : Vector α s.layers} {damping : Damping α (Vector α s.layers)}
    (ok : ((iterate weights.toArray most (damping.map Vector.toArray) slope (some request)).run
      s).result = .ok realized) :
    ∃ p : Progress α s.layers, p.steps = realized.iterations ∧
      (s.ascent weights damping).Remembers s.costs request.window p ∧
      realized.trend = some (p.trend request.window s.diagrams.chainOf request.decay) := by
  obtain ⟨roomy, fits⟩ := fits_of_iterate ok
  have answer := ok.symm.trans (yields_iterate weights damping slope roomy fits).result
  cases answer
  exact ⟨_, rfl, (s.ascent weights damping).remembers_run s.costs ⟨slope, request.window⟩ _, rfl⟩

/-- A run with a window of `w` trailing steps answers with the average of the solutions after each
of them, and with the mean first and second differences of every chain's bound over them.  It
answers if there is room for that and the run without it does, which ends in the same state after
as many steps. -/
theorem iterate_trend (s : Solver α) (weights : Vector α s.layers) (most : Nat)
    (damping : Damping α (Vector α s.layers)) (slope : α) (request : TrendRequest α) :
    let a := s.ascent weights damping
    let call (trend : Option (TrendRequest α)) :=
      (iterate weights.toArray most (damping.map Vector.toArray) slope trend).run s
    ((∃ realized, (call (some request)).result = .ok realized) ↔
        s.checkTrend (some request) = .ok () ∧ ∃ realized, (call none).result = .ok realized) ∧
      ∀ realized, (call (some request)).result = .ok realized →
        let r := realized.iterations
        let w := min request.window r
        let x (t : Nat) := (a.after t s.costs).solution
        let bound (t : Nat) (chain : Fin s.bdds) :=
          ((a.after t s.costs).boundsBy s.diagrams.chainOf).get chain
        realized.trend = some
            { average :=
                (if w = 0 then x r
                else (List.range' (r - w + 2) (w - 1)).foldl
                  (fun average t => blend request.decay average (x t)) (x (r - w + 1))).toArray
              first := Array.ofFn fun chain =>
                if w = 0 then 0
                else Scalar.div (bound r chain - bound (r - w) chain) (Scalar.ofNat w)
              second := Array.ofFn fun chain =>
                if w < 2 then 0
                else
                  Scalar.div ((bound r chain - bound (r - 1) chain) -
                    (bound (r - w + 1) chain - bound (r - w) chain)) (Scalar.ofNat (w - 1)) } ∧
          (call none).result = .ok ⟨r, none⟩ ∧ (call none).state = (call (some request)).state := by
  intro a call
  refine ⟨?_, fun realized ok => ?_⟩
  · rw [iterate_answers_iff weights damping, iterate_answers_iff weights damping]
    exact and_congr_right fun _ => (and_iff_right rfl).symm
  · intro r w x bound
    have plain := iterate_without_trend weights damping ok
    obtain ⟨p, steps, remembers, summary⟩ := trend_of_iterate ok
    refine ⟨summary.trans ?_, plain.result, plain.state⟩
    have formula := remembers.trend_eq s.diagrams.chainOf request.decay
    dsimp only at formula
    rw [formula, remembers.averageSolution_eq, steps]

/-- A run that settles after three of twenty steps, summarised over its last two. -/
theorem opposed_trend :
    let weights := Ascent.evenWeights opposed.diagrams.slotOf
    let a := opposed.ascent weights (.shared (1 / 2))
    let call (trend : Option (TrendRequest ℚ)) :=
      (iterate weights.toArray 20 (.shared (1 / 2)) (1 / 5) trend).run opposed
    let x (t : Nat) := (a.after t opposed.costs).solution
    let bound (t : Nat) (chain : Fin opposed.bdds) :=
      ((a.after t opposed.costs).boundsBy opposed.diagrams.chainOf).get chain
    ∃ realized, (call (some ⟨2, 1 / 4, ⟨5, 2, 2⟩⟩)).result = .ok realized ∧
      realized.iterations = 3 ∧ (call none).result = .ok ⟨3, none⟩ ∧
      realized.trend = some
        { average := (blend (1 / 4) (x 2) (x 3)).toArray
          first := Array.ofFn fun chain => (bound 3 chain - bound 1 chain) / 2
          second := Array.ofFn fun chain =>
            ((bound 3 chain - bound 2 chain) - (bound 2 chain - bound 1 chain)) / 1 } := by
  intro weights a call x bound
  have settled : (call (some ⟨2, 1 / 4, ⟨5, 2, 2⟩⟩)).result.toOption.map Realized.iterations =
      some 3 := by
    decide +kernel
  obtain ⟨realized, ok, length⟩ := Option.map_eq_some_iff.mp settled
  rw [toOption_eq_some_iff] at ok
  obtain ⟨summary, plain, -⟩ := (iterate_trend opposed weights 20 (.shared (1 / 2)) (1 / 5)
    ⟨2, 1 / 4, ⟨5, 2, 2⟩⟩).2 realized ok
  rw [length] at summary plain
  exact ⟨realized, ok, length, plain, summary⟩

end DualAscent.Solver
