import DualAscent.Proofs.Batch.Place
import DualAscent.Proofs.Batch.Walk
import DualAscent.Proofs.Pairing
import DualAscent.Proofs.Sized

/-!
# Families over the solvers of a batch

What every solver contributes is a family over the positions in the batch.  A visit collects such a
family, and flat arrays that are joined from two of them are paired solver by solver.
-/

namespace DualAscent

open Procedure

namespace Batch

variable {Λ σ ε β : Type} {b : Batch σ}

theorem getElem?_sizes_eq_some (i : Fin b.members.length) :
    b.sizes[i.val]? = some b.members[i].frozen :=
  getElem?_sizes (List.getElem?_eq_getElem i.isLt)

/-- The segments of the solver at a position. -/
def placeAt (b : Batch σ) (i : Fin b.members.length) : Segmentation → Span :=
  place b.sizes i b.members[i].frozen

/-- The solver at a position. -/
abbrev solverAt (b : Batch σ) (i : Fin b.members.length) : σ := b.members[i].solver

theorem stop_placeAt_le (i : Fin b.members.length) (kind : Segmentation) :
    (b.placeAt i kind).stop ≤ Sizes.total kind b.sizes :=
  stop_place_le (getElem?_sizes_eq_some i) kind

/-- If it is known what each solver answers, so is what a visit collects. -/
theorem visit_of_each {visiting : Nat → Sizes → Procedure Λ σ ε β}
    {part : Fin b.members.length → β}
    (each : ∀ i : Fin b.members.length,
      ((visiting i b.members[i].frozen).run b.members[i].solver).result = .ok (part i)) :
    ((visit b.sizes visiting).run b).result = .ok (List.ofFn part) := by
  have at_position {i : Nat} {size : Sizes} {member : Member σ} (size_i : b.sizes[i]? = some size)
      (member_i : b.members[i]? = some member) :
      ∃ within, ((visiting i size).run member.solver).result = .ok (part ⟨i, within⟩) := by
    obtain ⟨within, rfl⟩ := List.getElem?_eq_some_iff.mp member_i
    obtain rfl := Option.some.inj ((getElem?_sizes_eq_some ⟨i, within⟩).symm.trans size_i)
    exact ⟨within, each ⟨i, within⟩⟩
  have served : ∃ moved parts, Served (quiet visiting) 0 () b.sizes b.members () moved parts := by
    refine served_of_each (by simp [sizes]) 0 fun i size member size_i member_i => ?_
    obtain ⟨within, answered⟩ := at_position size_i member_i
    rw [Nat.zero_add]
    exact ⟨_, answered⟩
  obtain ⟨moved, parts, served⟩ := served
  obtain rfl : parts = List.ofFn part := by
    refine List.ext_getElem (by simp [served.length_eq]) fun i inside inside' => ?_
    have within : i < b.members.length := served.length_eq ▸ inside
    obtain ⟨value, found, answered, -⟩ :=
      served.get (getElem?_sizes_eq_some ⟨i, within⟩) (List.getElem?_eq_getElem within)
    rw [Nat.zero_add] at answered
    rw [List.getElem?_eq_getElem inside] at found
    rw [List.getElem_ofFn, Option.some.inj found]
    exact Except.ok.inj (answered.symm.trans (each ⟨i, within⟩))
  exact served.visit.result

end Batch

section Joined

variable {β : Type} {m : Nat}

theorem joined_ofFn_succ (part : Fin (m + 1) → Array β) :
    joined (List.ofFn part) = part 0 ++ joined (List.ofFn fun i => part i.succ) := by
  rw [List.ofFn_succ]
  rfl

theorem size_joined_ofFn (part : Fin m → Array β) :
    (joined (List.ofFn part)).size = ∑ i, (part i).size := by
  induction m with
  | zero => rfl
  | succ m ih => rw [joined_ofFn_succ, Array.size_append, ih, Fin.sum_univ_succ]

theorem mem_joined_ofFn {part : Fin m → Array β} {value : β} :
    value ∈ joined (List.ofFn part) ↔ ∃ i, value ∈ part i := by
  induction m with
  | zero => simp [joined]
  | succ m ih => rw [joined_ofFn_succ, Array.mem_append, ih, Fin.exists_fin_succ]

/-- An array is joined from the segments of consecutive places. -/
theorem joined_slices {kind : Segmentation} {sizes : List Sizes} {values : Array β}
    (sized : values.size = Sizes.total kind sizes) :
    joined (sizes.mapIdx fun i size => (place sizes i size kind).slice values) = values := by
  have from_start (start : Nat) (covers : start + Sizes.total kind sizes = values.size) :
      joined (sizes.mapIdx fun i size => (⟨start + (place sizes i size kind).start,
        start + (place sizes i size kind).stop⟩ : Span).slice values) =
          (⟨start, values.size⟩ : Span).slice values := by
    clear sized
    induction sizes generalizing start with
    | nil =>
        obtain rfl : start = values.size := covers
        rw [Span.slice_self]
        rfl
    | cons first sizes ih =>
        have total : Sizes.total kind (first :: sizes) =
          first.segment kind + Sizes.total kind sizes := List.sum_cons
        have later := ih (start + first.segment kind) (by omega)
        have here : place (first :: sizes) 0 first kind = ⟨0, first.segment kind⟩ := by
          simp [place, Sizes.total]
        rw [Span.slice_eq_append (Nat.le_add_right start (first.segment kind)) (by omega), ← later,
          List.mapIdx_cons, here]
        simp only [place_succ, Nat.add_assoc]
        rfl
  have whole := from_start 0 (by rw [Nat.zero_add, sized])
  simp only [Nat.zero_add] at whole
  exact whole.trans Array.extract_size

theorem Batch.joined_placeAt {σ : Type} {b : Batch σ} {kind : Segmentation} {values : Array β}
    (sized : values.size = Sizes.total kind b.sizes) :
    joined (List.ofFn fun i => (b.placeAt i kind).slice values) = values := by
  conv => rhs; rw [← joined_slices sized]
  refine congrArg joined (List.ext_getElem (by simp [sizes]) fun i inside inside' => ?_)
  simp [placeAt, sizes]

/-- What is joined is cut to what it was joined from. -/
theorem Batch.slice_joined_ofFn {σ : Type} {b : Batch σ} {kind : Segmentation}
    {part : Fin b.members.length → Array β}
    (filled : ∀ i, (part i).size = (b.placeAt i kind).length) (i : Fin b.members.length) :
    (b.placeAt i kind).slice (joined (List.ofFn part)) = part i := by
  refine slice_joined kind ?_ (getElem?_sizes_eq_some i) (by simp)
  refine List.forall₂_iff_get.mpr ⟨by simp [sizes], fun j inside inside' => ?_⟩
  have within : j < b.members.length := by simpa [sizes] using inside
  simpa [placeAt, sizes] using filled ⟨j, within⟩

/-- Arrays of the right size are joined from the families that they are cut to. -/
theorem Batch.joined_fit [Zero β] {σ : Type} {b : Batch σ} {kind : Segmentation}
    {size : Fin b.members.length → Nat} {values : Array β}
    (sized : values.size = Sizes.total kind b.sizes)
    (long : ∀ i, (b.placeAt i kind).length = size i) :
    joined (List.ofFn fun i => (fit (size i) ((b.placeAt i kind).slice values)).toArray) =
      values := by
  conv => rhs; rw [← joined_placeAt sized]
  refine congrArg joined (congrArg List.ofFn (funext fun i => toArray_fit ?_))
  rw [Span.size_slice _ _ (sized ▸ stop_placeAt_le i kind), long]

/-- A family with an entry for every index of every place covers a flat array. -/
theorem Batch.size_joined_toArray [Zero β] {σ : Type} {b : Batch σ} {kind : Segmentation}
    {size : Fin b.members.length → Nat} (long : ∀ i, (b.placeAt i kind).length = size i)
    (part : (i : Fin b.members.length) → Vector β (size i)) :
    (joined (List.ofFn fun i => (part i).toArray)).size = Sizes.total kind b.sizes := by
  have zeros_size : (Array.replicate (Sizes.total kind b.sizes) (0 : β)).size =
      Sizes.total kind b.sizes := Array.size_replicate
  conv => rhs; rw [← zeros_size, ← joined_fit zeros_size long]
  simp only [size_joined_ofFn, Vector.size_toArray]

variable {R : Type} [CommRing R]

/-- Arrays joined from aligned families are paired part by part. -/
theorem dot_joined_ofFn {first second : Fin m → Array R}
    (aligned : ∀ i, (first i).size = (second i).size) :
    dot (joined (List.ofFn first)) (joined (List.ofFn second)) =
      ∑ i, dot (first i) (second i) := by
  induction m with
  | zero => rfl
  | succ m ih =>
      rw [joined_ofFn_succ, joined_ofFn_succ, dot_append (aligned 0),
        ih fun i => aligned i.succ, Fin.sum_univ_succ]

theorem joined_difference {later earlier : Fin m → Array R}
    (aligned : ∀ i, (later i).size = (earlier i).size) :
    difference (joined (List.ofFn later)) (joined (List.ofFn earlier)) =
      joined (List.ofFn fun i => difference (later i) (earlier i)) := by
  induction m with
  | zero => simp [difference, joined]
  | succ m ih =>
      simp only [joined_ofFn_succ]
      rw [difference, Array.zipWith_append (aligned 0), ← ih fun i => aligned i.succ]
      rfl

/-- Families are paired entry by entry with what separates two others. -/
theorem dot_difference_joined {size : Fin m → Nat}
    (weights later earlier : (i : Fin m) → Vector R (size i)) :
    dot (joined (List.ofFn fun i => (weights i).toArray))
        (difference (joined (List.ofFn fun i => (later i).toArray))
          (joined (List.ofFn fun i => (earlier i).toArray))) =
      ∑ i, ∑ l, (weights i).get l * ((later i).get l - (earlier i).get l) := by
  rw [joined_difference fun i => by simp]
  simp only [difference_toArray]
  rw [dot_joined_ofFn fun i => by simp]
  apply Finset.sum_congr rfl
  intro i _
  rw [dot_toArray]
  apply Finset.sum_congr rfl
  intro l _
  exact congrArg ((weights i).get l * ·) (Vector.getElem_zipWith l.isLt)

end Joined

end DualAscent
