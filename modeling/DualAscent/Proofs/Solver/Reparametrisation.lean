import DualAscent.Proofs.Ascent.Energy
import DualAscent.Proofs.Ascent.Run
import DualAscent.Proofs.Solver.Iterate

/-!
# Dual iterations reparametrise

A solver that serves dual iterations keeps the energy of every assignment, and if the updates take
averages its total lower bound does not fall.
-/

namespace DualAscent.Solver

variable {K : Type}

/-- Cost of all layers of the solver if each takes the branch that is assigned to its slot. -/
def energy [AddCommMonoid K] (s : Solver K) (assignment : Nat → Bool) : K :=
  s.costs.energy s.diagrams.slotOf fun slot => assignment slot

section Run

variable [Scalar K] [Zero K] [Add K] [Sub K] [Mul K] [Neg K]

omit [Scalar K] [Add K] [Sub K] [Mul K] [Neg K] in
/-- A solver without layers has no deferred min-marginals to lose. -/
theorem costs_torn {s : Solver K} (kept : s.torn.intact = true) : s.torn.costs = s.costs := by
  have empty : s.diagrams.layers = 0 := of_decide_eq_true kept
  have same : (Vector.replicate s.diagrams.layers 0 : Vector K s.diagrams.layers) =
      s.costs.deferred := Vector.ext fun i inside => absurd inside (empty ▸ Nat.not_lt_zero i)
  show Costs.mk s.costs.toBranches _ = s.costs
  rw [same]

/-- Unless the run breaks off, a request for dual iterations leaves the solver with the costs that
some number of steps reaches; nothing else about the problem changes. -/
theorem iterate_costs (s : Solver K) (weights : Vector K s.layers) (most : Nat)
    (damping : Damping K (Vector K s.layers)) (slope : K) (trend : Option (TrendRequest K)) :
    let next :=
      ((iterate weights.toArray most (damping.map Vector.toArray) slope trend).run s).state
    (∃ k ≤ s.cap most, ∃ pending,
        next = { s with costs := (s.ascent weights damping).after k s.costs, pending }) ∨
      (next = s.torn ∧ s.cap most ≠ 0 ∧ fitsMemory s.slots sumBytes = false) := by
  rcases iterate_cases s weights.toArray most (damping.map Vector.toArray) slope trend with
    ⟨same, -⟩ | ⟨broken, -, unfit⟩ | ⟨weights', damping', weights_eq, damping_eq, recorded, -⟩
  · exact .inl ⟨0, Nat.zero_le _, s.pending, same⟩
  · exact .inr ⟨broken, unfit⟩
  · left
    obtain rfl : weights' = weights := Vector.toArray_inj.mp weights_eq
    obtain rfl : damping' = damping := by
      have read := dampingSegment_map_toArray "" damping
      rw [dampingSegment_eq_ok_iff.mpr damping_eq] at read
      exact Except.ok.inj read
    obtain ⟨k, within, -, current⟩ := (s.ascent weights' damping').run_eq_after
      ⟨slope, (trend.map (·.window)).getD 0⟩ (s.cap most) (Progress.start s.costs)
    exact ⟨k, within, _, recorded.trans (by rw [finish, current]; rfl)⟩

end Run

variable [Field K] [LinearOrder K] [IsStrictOrderedRing K] [Scalar K] [ExactScalar K]

/-- Dual iterations that damp all layers of a slot alike and share every slot out keep the energy
of all assignments, which the total bound never exceeds, and the bound does not fall if the
updates take averages, unless the run breaks off.  No run does with memory for its sums.  Even
weights share every slot out. -/
theorem iterate_reparametrises (s : Solver K) (weights : Vector K s.layers) (most : Nat)
    (damping : Damping K (Vector K s.layers)) (slope : K) (trend : Option (TrendRequest K))
    (damps : (s.ascent weights damping).DampsSlots)
    (shares : (s.ascent weights damping).SharesSlots) :
    let next :=
      ((iterate weights.toArray most (damping.map Vector.toArray) slope trend).run s).state
    (next.diagrams = s.diagrams ∧
        (next.intact = true → ∀ assignment, next.energy assignment = s.energy assignment)) ∧
      (∀ (t : Solver K) assignment, t.costs.bound ≤ t.energy assignment) ∧
      (next.intact = true → (s.ascent weights damping).Averages →
        s.costs.bound ≤ next.costs.bound) ∧
      (s.intact = true → s.cap most = 0 ∨ fitsMemory s.slots sumBytes = true →
        next.intact = true) ∧
      (s.ascent (Ascent.evenWeights s.diagrams.slotOf) damping).SharesSlots := by
  intro next
  have shared := Ascent.sharesSlots_evenWeights s.diagrams.slotOf damping
  have bounded (t : Solver K) assignment : t.costs.bound ≤ t.energy assignment :=
    t.costs.bound_le_energy t.diagrams.slotOf _
  rcases iterate_costs s weights most damping slope trend with
    ⟨k, -, pending, reached⟩ | ⟨broken, busy, unfit⟩
  · have reached : next = _ := reached
    rw [reached]
    exact ⟨⟨rfl, fun _ _ => Ascent.energy_after damps shares k s.costs _⟩, bounded,
      fun _ averages => Ascent.bound_le_after damps shares averages k s.costs,
      fun intact _ => intact, shared⟩
  · have broken : next = s.torn := broken
    rw [broken]
    refine ⟨⟨rfl, fun kept assignment => ?_⟩, bounded, fun kept _ => ?_, fun _ fits => ?_, shared⟩
    · exact congrArg (fun costs : Costs (Vector K s.layers) =>
        costs.energy s.diagrams.slotOf fun slot => assignment slot) (costs_torn kept)
    · exact (congrArg Costs.bound (costs_torn kept)).ge
    · exact absurd (fits.resolve_left busy) (by simp [unfit])

/-- Two chains that share their second variable and disagree about it. -/
def opposed : Solver ℚ where
  diagrams := ⟨2, [[0, 1], [1]]⟩
  costs := ⟨⟨#v[0, 0, 0, 0, 0], #v[1, -2, 0, 3, 0]⟩, #v[0, 0, 0, 0, 0]⟩
  limit := none
  failure := none
  pending := []
  replays := #[]
  intact := true

theorem opposed_reparametrised :
    let next := ((iterate (Ascent.evenWeights opposed.diagrams.slotOf).toArray 2
      (.shared (1 / 2)) 0 none).run opposed).state
    (∀ assignment, next.energy assignment = opposed.energy assignment) ∧
      opposed.costs.bound = -2 ∧ -2 ≤ next.costs.bound := by
  have averages : (opposed.ascent (Ascent.evenWeights opposed.diagrams.slotOf)
      (.shared (1 / 2))).Averages := by
    refine ⟨fun l => ?_, fun l => ?_, fun l => ?_⟩
    · show 0 ≤ (Ascent.evenWeights opposed.diagrams.slotOf).get l
      rw [Ascent.get_evenWeights]
      exact one_div_nonneg.mpr (Nat.cast_nonneg _)
    · show (0 : ℚ) ≤ 1 / 2
      norm_num
    · show (1 / 2 : ℚ) ≤ 1
      norm_num
  obtain ⟨⟨-, kept⟩, -, ascends, whole, -⟩ := iterate_reparametrises opposed
    (Ascent.evenWeights opposed.diagrams.slotOf) 2 (.shared (1 / 2)) 0 none
    (fun _ _ _ => rfl) (Ascent.sharesSlots_evenWeights _ _)
  have start : opposed.costs.bound = -2 := by decide +kernel
  have intact := whole rfl (.inr (by decide))
  exact ⟨kept intact, start, start ▸ ascends intact averages⟩

end DualAscent.Solver
