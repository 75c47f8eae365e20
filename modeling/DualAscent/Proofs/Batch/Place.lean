import DualAscent.Proofs.Alike
import DualAscent.Proofs.Segment

/-!
# The places of solvers in a batch

A solver's segment starts where those of the solvers before it end.  Visits go through the solvers
by their places, and a flat array is made up of what lies at all places.
-/

namespace DualAscent

/-- The segments of the `i`-th solver, which has the given size, by what they count. -/
def place (sizes : List Sizes) (i : Nat) (size : Sizes) (kind : Segmentation) : Span :=
  ⟨Sizes.total kind (sizes.take i), Sizes.total kind (sizes.take i) + size.segment kind⟩

@[simp]
theorem length_place (sizes : List Sizes) (i : Nat) (size : Sizes) (kind : Segmentation) :
    (place sizes i size kind).length = size.segment kind :=
  Nat.add_sub_cancel_left _ _

theorem stop_place_le {sizes : List Sizes} {i : Nat} {size : Sizes} (found : sizes[i]? = some size)
    (kind : Segmentation) : (place sizes i size kind).stop ≤ Sizes.total kind sizes := by
  have parts := List.take_append_drop i sizes
  have rest : sizes.drop i = size :: sizes.drop (i + 1) := by
    obtain ⟨inside, rfl⟩ := List.getElem?_eq_some_iff.mp found
    exact List.drop_eq_getElem_cons inside
  rw [rest] at parts
  conv => rhs; rw [← parts]
  simp only [place, Sizes.total, List.map_append, List.sum_append, List.map_cons, List.sum_cons]
  omega

theorem consecutive_eq_mapIdx (kind : Segmentation) (offset : Nat) (sizes : List Sizes) :
    Span.consecutive offset (sizes.map (·.segment kind)) =
      sizes.mapIdx fun i size =>
        ⟨offset + Sizes.total kind (sizes.take i),
          offset + Sizes.total kind (sizes.take i) + size.segment kind⟩ := by
  induction sizes generalizing offset with
  | nil => rfl
  | cons size sizes ih =>
      rw [List.map_cons, Span.consecutive, ih, List.mapIdx_cons]
      simp only [Sizes.total, List.take_succ_cons, List.take_zero, List.map_cons, List.map_nil,
        List.sum_cons, List.sum_nil, Nat.add_assoc, Nat.add_zero]

theorem Layout.spans_ofSizes (kind : Segmentation) (sizes : List Sizes) :
    (Layout.ofSizes kind sizes).spans = sizes.mapIdx fun i size => place sizes i size kind := by
  rw [ofSizes, consecutive_eq_mapIdx]
  simp only [Nat.zero_add]
  rfl

namespace Batch

variable {σ : Type} {b : Batch σ} {i : Nat} {member : Member σ}

theorem getElem?_sizes (member_at : b.members[i]? = some member) :
    b.sizes[i]? = some member.frozen := by
  rw [sizes, List.getElem?_map, member_at]
  rfl

/-- The place of a solver that still has its frozen sizes. -/
theorem Stable.place_at {α : Type} [Engine α σ] (stable : b.Stable)
    (member_at : b.members[i]? = some member) (kind : Segmentation) :
    (place b.sizes i member.frozen kind).length = (Engine.sizes member.solver).segment kind ∧
      (place b.sizes i member.frozen kind).stop ≤ Sizes.total kind b.sizes := by
  rw [length_place, stable member (List.mem_of_getElem? member_at)]
  exact ⟨rfl, stop_place_le (getElem?_sizes member_at) kind⟩

end Batch

theorem place_succ (first : Sizes) (sizes : List Sizes) (i : Nat) (size : Sizes)
    (kind : Segmentation) :
    place (first :: sizes) (i + 1) size kind =
      ⟨first.segment kind + (place sizes i size kind).start,
        first.segment kind + (place sizes i size kind).stop⟩ := by
  simp only [place, Sizes.total, List.take_succ_cons, List.map_cons, List.sum_cons, Nat.add_assoc]

/-- Every index lies at some place. -/
theorem exists_place {kind : Segmentation} {sizes : List Sizes} {k : Nat}
    (inside : k < Sizes.total kind sizes) :
    ∃ i size, sizes[i]? = some size ∧ (place sizes i size kind).start ≤ k ∧
      k < (place sizes i size kind).stop := by
  induction sizes generalizing k with
  | nil => exact absurd inside (Nat.not_lt_zero k)
  | cons first sizes ih =>
      rw [Sizes.total, List.map_cons, List.sum_cons] at inside
      by_cases here : k < first.segment kind
      · refine ⟨0, first, rfl, Nat.zero_le k, ?_⟩
        simp only [place, Sizes.total, List.take_zero, List.map_nil, List.sum_nil]
        omega
      · obtain ⟨i, size, found, above, below⟩ := ih
          (show k - first.segment kind < Sizes.total kind sizes by
            simp only [Sizes.total]
            omega)
        refine ⟨i + 1, size, found, ?_⟩
        rw [place_succ]
        dsimp only
        omega

section Joined

variable {β : Type} {sizes : List Sizes} {kind : Segmentation}

@[simp]
theorem joined_singleton (values : Array β) : joined [values] = values :=
  Array.append_empty

theorem size_joined (kind : Segmentation) {parts : List (Array β)}
    (filled : List.Forall₂ (fun size part => part.size = size.segment kind) sizes parts) :
    (joined parts).size = Sizes.total kind sizes := by
  induction filled with
  | nil => rfl
  | cons here rest ih =>
      rw [joined, List.foldr_cons, Array.size_append, here]
      exact congrArg (_ + ·) ih

/-- The segment at a place is what was put there. -/
theorem slice_joined (kind : Segmentation) {parts : List (Array β)}
    (filled : List.Forall₂ (fun size part => part.size = size.segment kind) sizes parts) {i : Nat}
    {size : Sizes} {part : Array β} (found : sizes[i]? = some size)
    (part_eq : parts[i]? = some part) :
    (place sizes i size kind).slice (joined parts) = part := by
  induction filled generalizing i with
  | nil => cases found
  | @cons first values sizes parts here rest ih =>
      cases i with
      | zero =>
          cases found
          cases part_eq
          have start : place (size :: sizes) 0 size kind = ⟨0, part.size⟩ := by
            rw [here]
            simp [place, Sizes.total]
          rw [start, Span.slice, joined, List.foldr_cons, Array.extract_append]
          simp
      | succ i =>
          have later := ih found part_eq
          rw [place_succ, Span.slice, joined, List.foldr_cons, Array.extract_append, ← here]
          rw [Array.extract_eq_empty_of_le (by dsimp only; omega)]
          simpa [Span.slice, joined] using later

/-- Every entry lies in the segment of some place. -/
theorem exists_mem_slice {values : Array β} (sized : values.size = Sizes.total kind sizes)
    {value : β} (member : value ∈ values) :
    ∃ i size, sizes[i]? = some size ∧ value ∈ (place sizes i size kind).slice values := by
  obtain ⟨k, inside, rfl⟩ := Array.mem_iff_getElem.mp member
  obtain ⟨i, size, found, above, below⟩ := exists_place (sized ▸ inside)
  refine ⟨i, size, found, Array.mem_extract_iff_getElem.mpr ?_⟩
  refine ⟨k - (place sizes i size kind).start, ?_, ?_⟩
  · omega
  · simp only [Nat.add_sub_cancel' above]

end Joined

namespace Batch

variable {Λ σ ε ι ι' κ β : Type}

theorem walk_mapIdx (work : Nat → ι → κ → Procedure Λ σ ε (κ × β)) (f : Nat → ι' → ι)
    (position : Nat) (carry : κ) (shares : List ι') (members : List (Member σ)) :
    walk work position carry (shares.mapIdx fun i share => f (position + i) share) members =
      walk (fun i share => work i (f i share)) position carry shares members := by
  induction shares generalizing position carry members with
  | nil => rfl
  | cons share shares ih =>
      cases members with
      | nil => 
          rw [List.mapIdx_cons]
          rfl
      | cons member members =>
          have shifted : ∀ next, walk work (position + 1) next
              (shares.mapIdx fun i share => f (position + (i + 1)) share) members =
                walk (fun i share => work i (f i share)) (position + 1) next shares members := by
            intro next
            rw [← ih (position + 1) next members]
            simp only [Nat.add_assoc, Nat.add_comm 1]
          rw [List.mapIdx_cons]
          simp only [walk, shifted, Nat.add_zero]

theorem visitCarrying_mapIdx (work : Nat → ι → κ → Procedure Λ σ ε (κ × β)) (f : Nat → ι' → ι)
    (carry : κ) (shares : List ι') :
    visitCarrying carry (shares.mapIdx f) work =
      visitCarrying carry shares fun i share => work i (f i share) := by
  funext b
  have same := walk_mapIdx work f 0 carry shares b.members
  simp only [Nat.zero_add] at same
  rw [visitCarrying, visitCarrying, same]

theorem visit_mapIdx (work : Nat → ι → Procedure Λ σ ε β) (f : Nat → ι' → ι) (shares : List ι') :
    visit (shares.mapIdx f) work = visit shares fun i share => work i (f i share) := by
  rw [visit, visitCarrying_mapIdx]
  rfl

end Batch

end DualAscent
