import DualAscent.Batch
import DualAscent.Proofs.Procedure
import Mathlib.Algebra.BigOperators.Fin

/-!
# Segments of a batch

The segments of a batch follow each other without gaps, so that they cover exactly the arrays
whose length is the sum of theirs.
-/

namespace DualAscent

variable {α β : Type}

namespace Span

theorem finish_consecutive_cons (start n : Nat) (lengths : List Nat) :
    finish (consecutive start (n :: lengths)) = start + (n :: lengths).sum := by
  induction lengths generalizing start n with
  | nil => simp [consecutive, finish]
  | cons m lengths ih =>
      have later := ih (start + n) m
      simp only [finish, consecutive, List.getLast?_cons_cons, List.sum_cons] at later ⊢
      omega

theorem finish_consecutive (lengths : List Nat) :
    finish (consecutive 0 lengths) = lengths.sum := by
  cases lengths with
  | nil => rfl
  | cons n lengths => rw [finish_consecutive_cons, Nat.zero_add]

/-- A segment followed by what comes after it. -/
theorem slice_eq_append {start middle stop : Nat} (first : start ≤ middle) (second : middle ≤ stop)
    (values : Array β) :
    (⟨start, stop⟩ : Span).slice values =
      (⟨start, middle⟩ : Span).slice values ++ (⟨middle, stop⟩ : Span).slice values := by
  rw [slice, slice, slice, Array.extract_append_extract, Nat.min_eq_left first,
    Nat.max_eq_right second]

@[simp]
theorem slice_self (stop : Nat) (values : Array β) : (⟨stop, stop⟩ : Span).slice values = #[] :=
  Array.extract_empty_of_stop_le_start (Nat.le_refl stop)

end Span

/-- Length of a flat array with a segment for every solver. -/
def Sizes.total (kind : Segmentation) (sizes : List Sizes) : Nat :=
  (sizes.map (·.segment kind)).sum

theorem Layout.total_ofSizes (kind : Segmentation) (sizes : List Sizes) :
    (Layout.ofSizes kind sizes).total = Sizes.total kind sizes :=
  Span.finish_consecutive _

/-- The segments of a batch cover an array of their total length. -/
theorem Layout.require_ofSizes (kind : Segmentation) (sizes : List Sizes) :
    (Layout.ofSizes kind sizes).require (α := α) (Sizes.total kind sizes) = .ok () := by
  rw [require, fits, total_ofSizes, decide_eq_true rfl, if_pos rfl]

theorem Layout.total_of_require {layout : Layout} {length : Nat}
    (ok : layout.require (α := α) length = .ok ()) : layout.total = length := by
  by_contra differs
  rw [require, fits, decide_eq_false differs] at ok
  cases ok

theorem Layout.eq_total_of_require {kind : Segmentation} {sizes : List Sizes} {length : Nat}
    (ok : (ofSizes kind sizes).require (α := α) length = .ok ()) :
    length = Sizes.total kind sizes :=
  (total_of_require ok).symm.trans (total_ofSizes kind sizes)

namespace Batch

variable {σ : Type}

theorem total_eq_sum (b : Batch σ) (kind : Segmentation) :
    b.total kind = Sizes.total kind b.sizes := by
  have ordered : ∀ (sizes : List Sizes) (start : Nat),
      sizes.foldl (fun sum sizes => sum + sizes.segment kind) start =
        start + (sizes.map (·.segment kind)).sum := by
    intro sizes
    induction sizes with
    | nil => simp
    | cons size sizes ih =>
        intro start
        rw [List.foldl_cons, ih, List.map_cons, List.sum_cons, Nat.add_assoc]
  rw [total, ordered, Nat.zero_add, Sizes.total]

variable [Engine α σ]

/-- All solvers still have the sizes that they had when the batch was formed. -/
def Stable (b : Batch σ) : Prop :=
  ∀ member ∈ b.members, Engine.sizes member.solver = member.frozen

theorem stable_ofSolvers (solvers : List σ) : (ofSolvers solvers).Stable := by
  intro member inside
  obtain ⟨solver, -, rfl⟩ := List.mem_map.mp inside
  rfl

theorem ensureStable_eq_ok_iff {b : Batch σ} : b.ensureStable = .ok () ↔ b.Stable := by
  have search : b.ensureStable = .ok () ↔
      b.members.findIdx? (fun member => Engine.sizes member.solver ≠ member.frozen) = none := by
    rw [ensureStable]
    split
    · next found => simp only [found, reduceCtorEq]
    · next unchanged => simp only [unchanged]
  rw [search, List.findIdx?_eq_none_iff]
  exact forall₂_congr fun member _ => by simp

theorem ensureMatches_eq_ok_iff {b : Batch σ} {recorded : List Sizes} :
    b.ensureMatches recorded = .ok () ↔ b.sizes = recorded ∧ b.Stable := by
  have length_eq : b.length = b.sizes.length := (List.length_map _).symm
  by_cases aligned : b.sizes.length = recorded.length
  · have search : b.ensureMatches recorded = .ok () ↔
        (b.sizes.zip recorded).findIdx? (fun pair => pair.1 ≠ pair.2) = none ∧
          b.ensureStable = .ok () := by
      rw [ensureMatches, if_neg (not_not.mpr (length_eq.trans aligned))]
      split
      · next found => exact ⟨nofun, fun absent => nomatch found.symm.trans absent.1⟩
      · next unchanged => exact (and_iff_right unchanged).symm
    rw [search, ensureStable_eq_ok_iff, List.findIdx?_eq_none_iff]
    refine and_congr_left fun _ => ⟨fun same => ?_, fun same pair inside => ?_⟩
    · refine List.ext_getElem aligned fun i inside inside' => ?_
      have pair := same (b.sizes[i], recorded[i])
        (List.mem_iff_getElem.mpr ⟨i, by simp; omega, by simp⟩)
      simpa using pair
    · subst same
      obtain ⟨i, within, rfl⟩ := List.mem_iff_getElem.mp inside
      simp
  · rw [ensureMatches, if_pos (length_eq ▸ aligned)]
    constructor
    · intro failed
      cases failed
    · rintro ⟨same, -⟩
      exact absurd (congrArg List.length same) aligned

open Procedure

theorem run_resolve_of_covered {b : Batch σ} (stable : b.Stable) (kind : Segmentation)
    {length : Nat} (covered : length = Sizes.total kind b.sizes) :
    (resolve kind length : Work α σ Layout).run b =
      ⟨[.resolved (.ofSizes kind b.sizes)], b, .ok (.ofSizes kind b.sizes)⟩ := by
  have fits : (Layout.ofSizes kind b.sizes).require (α := α) length = .ok () := by
    rw [covered]
    exact Layout.require_ofSizes kind b.sizes
  rw [resolve, run_read_bind, ensureStable_eq_ok_iff.mpr stable, run_lift_ok_bind]
  dsimp only
  rw [fits]
  rfl

theorem yields_resolve {b : Batch σ} (stable : b.Stable) (kind : Segmentation) {length : Nat}
    (covered : length = Sizes.total kind b.sizes) :
    (resolve kind length : Work α σ Layout).Yields b b (Layout.ofSizes kind b.sizes) :=
  .of_run (run_resolve_of_covered stable kind covered)

theorem run_resolve_of_uncovered {b : Batch σ} {kind : Segmentation} {length : Nat}
    (uncovered : length ≠ b.total kind) :
    (resolve kind length : Work α σ Layout).run b =
      ⟨[], b, b.ensureStable >>= fun _ => .error (.layoutMismatch kind (b.total kind) length)⟩ := by
  have total : (Layout.ofSizes kind b.sizes).total = b.total kind :=
    (Layout.total_ofSizes kind b.sizes).trans (b.total_eq_sum kind).symm
  have misfit : (Layout.ofSizes kind b.sizes).require (α := α) length =
      .error (.layoutMismatch kind (b.total kind) length) := by
    rw [Layout.require, Layout.fits, total, decide_eq_false uncovered.symm,
      if_neg Bool.false_ne_true]
    rfl
  rw [resolve, run_read_bind]
  cases b.ensureStable with
  | error e => rfl
  | ok _ =>
      rw [run_lift_ok_bind]
      dsimp only
      rw [misfit]
      rfl

/-- Segments are resolved for a batch of unchanged sizes that cover the array. -/
theorem resolve_cases (b : Batch σ) (kind : Segmentation) (length : Nat) :
    (∃ e, (resolve kind length : Work α σ Layout).run b = ⟨[], b, .error e⟩) ∨
      b.Stable ∧ length = Sizes.total kind b.sizes := by
  cases unchanged : b.ensureStable with
  | error e =>
      rw [resolve, run_read_bind, unchanged]
      exact .inl ⟨e, rfl⟩
  | ok _ =>
      cases fits : (Layout.ofSizes kind b.sizes).require (α := α) length with
      | error e =>
          rw [resolve, run_read_bind, unchanged, run_lift_ok_bind]
          dsimp only
          rw [fits]
          exact .inl ⟨e, rfl⟩
      | ok _ =>
          exact .inr ⟨ensureStable_eq_ok_iff.mp unchanged, Layout.eq_total_of_require fits⟩

end Batch

end DualAscent
