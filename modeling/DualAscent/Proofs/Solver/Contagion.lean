import DualAscent.Proofs.Ascent.Contagion
import DualAscent.Proofs.Diagrams
import DualAscent.Proofs.Solver.Room

/-!
# What is not finite shows in an answer

A solver does not take in a gradient with an infinite or undefined entry and return finite ones.
For lower bounds this is due to every chain having a layer, whichever branch that layer takes.
-/

namespace DualAscent

namespace Solver

open Procedure

variable {α : Type} [Scalar α] {s : Solver α} {n : Nat}

theorem finite_of_minMarginalsBackward [Zero α] [Neg α] {gradient : Array α}
    {room : Branches Nat} {branches : Branches (Array α)}
    (ok : ((minMarginalsBackward gradient room).run s).result = .ok branches)
    (finite : branches.Finite) : FiniteEntries gradient := by
  simp only [minMarginalsBackward_eq, run_read_bind, result_lift_bind_eq_ok_iff] at ok
  obtain ⟨values, accepted, _, -, _, -, ok⟩ := ok
  obtain rfl := segment_eq_ok_iff.mp accepted
  cases ok
  exact finite.hi

variable [Zero α] [Add α] [Sub α] [Contagious α]

theorem finite_of_lowerBoundsBackward {gradient low : Array α} {room : Nat}
    {branches : Branches (Array α)}
    (ok : ((lowerBoundsBackward gradient low room).run s).result = .ok branches)
    (finite : branches.Finite) : FiniteEntries gradient := by
  simp only [lowerBoundsBackward_eq, run_read_bind, result_lift_bind_eq_ok_iff] at ok
  obtain ⟨values, accepted, _, -, _, -, _, -, ok⟩ := ok
  obtain rfl := segment_eq_ok_iff.mp accepted
  cases ok
  refine finiteEntries_toArray_iff.mpr fun chain => ?_
  obtain ⟨l, rfl⟩ := s.diagrams.exists_layer chain
  have lo := finite.lo _ (Array.mem_ofFn.mpr ⟨l, rfl⟩)
  have hi := finite.hi _ (Array.mem_ofFn.mpr ⟨l, rfl⟩)
  cases taken : s.costs.takesHigh l with
  | true => simpa [taken] using hi
  | false =>
      rw [taken, if_neg Bool.false_ne_true] at lo
      exact (Contagious.of_add _ _ lo).2

variable [Mul α] [Neg α]

theorem finite_of_iterateBackward {weights : Array α} {damping : Damping α (Array α)}
    {gradient swept : Inputs α (Array α)} {window : ReplayWindow} {caches : Nat}
    (ok : ((iterateBackward weights damping gradient window caches).run s).result = .ok swept)
    (finite : swept.costs.Finite) : gradient.costs.Finite := by
  rcases iterateBackward_cases s weights damping gradient window caches with
    ⟨-, e, failed⟩ | ⟨weights', damping', gradient', -, -, rfl, -, yields⟩
  · cases failed.symm.trans ok
  · cases yields.result.symm.trans ok
    rw [Solver.swept, Ascent.checkpointedSweep_eq_sweep] at finite
    exact Ascent.finite_of_sweep _ _ finite

end Solver

end DualAscent
