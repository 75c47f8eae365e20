import DualAscent.Operation.LowerBounds
import DualAscent.Solver.Engine

/-!
# Buffers and their elements

A buffer stands for the sequence of its elements, whatever lies between them in store.  Its length
counts the elements that are in store, a slice is handed out exactly where there are no gaps, and
packing keeps the elements and nothing else.  An operation that packs what has gaps cannot tell a
buffer from any other one in single precision with the same elements.
-/

namespace DualAscent

variable {α : Type}

/-- There are as many elements as multiples of the stride in store. -/
theorem lt_strideCount_iff {size stride i : Nat} (positive : 0 < stride) :
    i < strideCount size stride ↔ i * stride < size := by
  refine ⟨mul_lt_of_lt_strideCount positive, fun inside => ?_⟩
  apply (Nat.le_div_iff_mul_le positive).mpr
  rw [Nat.succ_mul]
  omega

theorem getElem?_everyNth {β : Type} (values : Array β) (stride : Nat) (positive : 0 < stride)
    (i : Nat) : (everyNth values stride positive)[i]? = values[i * stride]? := by
  have size_eq := size_everyNth values stride positive
  by_cases place : i * stride < values.size
  · have inside : i < (everyNth values stride positive).size := by
      rwa [size_eq, lt_strideCount_iff positive]
    rw [Array.getElem?_eq_getElem inside, Array.getElem?_eq_getElem place,
      getElem_everyNth values stride positive i inside place]
  · have outside : ¬i < (everyNth values stride positive).size := by
      rwa [size_eq, lt_strideCount_iff positive]
    rw [Array.getElem?_eq_none (Nat.le_of_not_lt outside),
      Array.getElem?_eq_none (Nat.le_of_not_lt place)]

/-- What is stored at a place, as a number in single precision. -/
def Storage.number? [Scalar α] (storage : Storage α) (place : Nat) : Option α :=
  match storage with
  | .single values => values[place]?
  | .double values => values[place]?.map Scalar.ofDouble
  | .int values => values[place]?.map fun n => Scalar.ofInt n.toInt

/-- A slice of all values of a buffer without gaps. -/
def WritableSlice.ofArray (values : Array α) : WritableSlice α :=
  ⟨values, fun new => .ofArray new.toArray⟩

namespace Buffer

theorem lt_length_iff (b : Buffer α) (i : Nat) : i < b.length ↔ i * b.stride < b.storage.size :=
  lt_strideCount_iff b.stride_pos

theorem formatFault?_eq_none_iff (b : Buffer α) :
    b.formatFault? = none ↔ b.elementType = .single ∧ b.stride = 1 := by
  rw [formatFault?]
  cases b.elementType with
  | single => by_cases contiguous : b.stride = 1 <;> simp [contiguous]
  | double => simp
  | int => simp

section Elements

variable [Scalar α]

theorem getElem?_elements (b : Buffer α) (i : Nat) :
    b.elements[i]? = b.storage.number? (i * b.stride) := by
  obtain ⟨storage, stride, positive⟩ := b
  cases storage with
  | single values => exact getElem?_everyNth values stride positive i
  | double values =>
      rw [elements, Array.getElem?_map, getElem?_everyNth]
      rfl
  | int values =>
      rw [elements, Array.getElem?_map, getElem?_everyNth]
      rfl

/-- There is nothing to pack where there are no gaps. -/
theorem packed_of_contiguous {b : Buffer α} (single : b.elementType = .single)
    (contiguous : b.stride = 1) : b.packed = b := by
  obtain ⟨storage, stride, positive⟩ := b
  cases contiguous
  cases storage with
  | single values => exact congrArg ofArray (everyNth_one values)
  | double values => cases single
  | int values => cases single

theorem packed_of_sound {b : Buffer α} (sound : b.formatFault? = none) : b.packed = b := by
  obtain ⟨single, contiguous⟩ := (formatFault?_eq_none_iff b).mp sound
  exact packed_of_contiguous single contiguous

omit [Scalar α] in
/-- No slice, to read or to write through, is handed out where something is wrong with the
format. -/
theorem slices_of_unsound {b : Buffer α} (unsound : b.formatFault? ≠ none) :
    b.dense? = none ∧ b.writable? = none := by
  rw [Ne, formatFault?_eq_none_iff] at unsound
  obtain ⟨storage, stride, positive⟩ := b
  cases storage with
  | single values =>
      have gaps : stride ≠ 1 := fun contiguous => unsound ⟨rfl, contiguous⟩
      exact ⟨if_neg gaps, if_neg gaps⟩
  | double values => exact ⟨rfl, rfl⟩
  | int values => exact ⟨rfl, rfl⟩

/-- A slice shows the elements, and is handed out if nothing is wrong with the format. -/
theorem dense?_eq (b : Buffer α) :
    b.dense? = if b.formatFault? = none then some b.elements else none := by
  split
  · next sound => exact congrArg dense? (packed_of_sound sound).symm
  · next unsound => exact (slices_of_unsound unsound).1

/-- A slice to write through shows the elements, and is handed out if nothing is wrong with the
format. -/
theorem writable?_eq (b : Buffer α) :
    b.writable? = if b.formatFault? = none then some (.ofArray b.elements) else none := by
  split
  · next sound => exact congrArg writable? (packed_of_sound sound).symm
  · next unsound => exact (slices_of_unsound unsound).2

theorem isSome_writable?_iff (b : Buffer α) :
    b.writable?.isSome = true ↔ b.formatFault? = none := by
  rw [writable?_eq]
  split
  · next sound => exact iff_of_true rfl sound
  · next unsound => exact iff_of_false Bool.false_ne_true unsound

/-- What is written through a slice becomes the elements, and what it shows may be written back. -/
theorem of_mem_writable? {b : Buffer α} {slice : WritableSlice α} (found : slice ∈ b.writable?) :
    slice.shown = b.elements ∧ slice.written ⟨slice.shown, rfl⟩ = b ∧
      ∀ new, (slice.written new).elements = new.toArray ∧
        (slice.written new).formatFault? = none ∧ (slice.written new).length = b.length := by
  have sound : b.formatFault? = none := by
    rw [← isSome_writable?_iff, Option.mem_def.mp found]
    rfl
  rw [writable?_eq, if_pos sound] at found
  cases found
  refine ⟨rfl, packed_of_sound sound, fun new => ⟨elements_ofArray _, rfl, ?_⟩⟩
  rw [← size_elements]
  exact (congrArg Array.size (elements_ofArray _)).trans
    (new.size_toArray.trans b.size_elements)

/-- What is written through a slice takes the place of all elements. -/
theorem filled?_eq (b : Buffer α) (value : α) :
    b.filled? value =
      if b.formatFault? = none then some (Array.replicate b.length value) else none := by
  by_cases sound : b.formatFault? = none
  · have found : b.writable? = some (.ofArray b.elements) := by rw [writable?_eq, if_pos sound]
    rw [if_pos sound, filled?, found, Option.map_some, ((of_mem_writable? found).2.2 _).1,
      Vector.toArray_replicate]
    exact congrArg (fun n => some (Array.replicate n value)) b.size_elements
  · rw [if_neg sound, filled?, writable?_eq, if_neg sound, Option.map_none]

theorem formatFault?_packed (b : Buffer α) : b.packed.formatFault? = none := rfl

theorem length_packed (b : Buffer α) : b.packed.length = b.length := by
  rw [← size_elements, elements_packed, size_elements]

/-- Packing depends on the elements only. -/
theorem packed_congr {b b' : Buffer α} (same : b'.elements = b.elements) : b'.packed = b.packed :=
  congrArg ofArray same

theorem packed_packed (b : Buffer α) : b.packed.packed = b.packed :=
  packed_congr b.elements_packed

theorem nonFinite_eq_countP {b : Buffer α} (single : b.elementType = .single) :
    b.nonFinite = b.elements.countP (!Scalar.isFinite ·) := by
  obtain ⟨storage, stride, positive⟩ := b
  cases storage with
  | single values => rfl
  | double values => cases single
  | int values => cases single

end Elements

end Buffer

namespace Buffer

open Batch Operation

variable {σ : Type} [Scalar α] [Zero α] [Engine α σ]

/-- Lower bounds are sent back as they are from the packed copy of their gradient. -/
theorem lowerBoundsBackward_packed (record : Saved (Branches (Array α)))
    (gradients : OutputGradients α) {b : Buffer α} (single : b.elementType = .single) :
    (lowerBoundsBackward record { gradients with values := some b } : Work α σ _) =
      lowerBoundsBackward record { gradients with values := some b.packed } := by
  have packs : (if b.isContiguous then b else b.packed) = b.packed := by
    by_cases contiguous : b.stride = 1
    · rw [packed_of_contiguous single contiguous, ite_self]
    · rw [isContiguous, decide_eq_false contiguous, if_neg Bool.false_ne_true]
  have packed : (if b.packed.isContiguous then b.packed else b.packed.packed) = b.packed := rfl
  simp only [lowerBoundsBackward, Option.map_some, packs, packed]

/-- A buffer stands for its elements.  It has as many as its length says, and each is what is stored
at its multiple of the stride, all of which are in store.  A slice is there to be read or written
exactly if nothing is wrong with the format, and shows the elements; what is written through it
becomes the elements, and length and format stay.  The packed copy has the right format and the same
elements, and packing it again changes nothing.  In single precision the elements that are not
finite are counted.  The backward pass of lower bounds does the same for every gradient in single
precision with these elements as for their packed copy, whatever its stride and whatever lies in its
gaps. -/
theorem represents_elements (b : Buffer α) :
    (b.elements.size = b.length ∧
      ∀ i, (i < b.length ↔ i * b.stride < b.storage.size) ∧
        b.elements[i]? = b.storage.number? (i * b.stride)) ∧
    (b.dense? = (if b.formatFault? = none then some b.elements else none) ∧
      (∀ value, b.filled? value =
        if b.formatFault? = none then some (Array.replicate b.length value) else none) ∧
      (b.writable?.isSome = true ↔ b.formatFault? = none) ∧
      ∀ slice ∈ b.writable?, slice.shown = b.elements ∧ slice.written ⟨slice.shown, rfl⟩ = b ∧
        ∀ new, (slice.written new).elements = new.toArray ∧
          (slice.written new).formatFault? = none ∧ (slice.written new).length = b.length) ∧
    (b.packed.formatFault? = none ∧ b.packed.length = b.length ∧
      b.packed.elements = b.elements ∧ b.packed.packed = b.packed) ∧
    (b.elementType = .single → b.nonFinite = b.elements.countP (!Scalar.isFinite ·)) ∧
    ∀ b' : Buffer α, b'.elementType = .single → b'.elements = b.elements →
      ∀ (record : Saved (Branches (Array α))) (gradients : OutputGradients α),
        (lowerBoundsBackward record { gradients with values := some b' } : Work α σ _) =
          lowerBoundsBackward record { gradients with values := some b.packed } := by
  refine ⟨⟨b.size_elements, fun i => ⟨b.lt_length_iff i, b.getElem?_elements i⟩⟩,
    ⟨b.dense?_eq, b.filled?_eq, b.isSome_writable?_iff, fun _ => of_mem_writable?⟩,
    ⟨b.formatFault?_packed, b.length_packed, b.elements_packed,
    b.packed_packed⟩, nonFinite_eq_countP, fun b' single same record gradients => ?_⟩
  rw [lowerBoundsBackward_packed record gradients single, packed_congr same]

section Examples

/-- A gradient with undefined numbers in its gaps. -/
def gapped : Buffer Float32 := ⟨.single #[1, 0 / 0, 2, 0 / 0], 2, Nat.two_pos⟩

/-- A solver with two chains. -/
def forked : Batch (Solver Float32) :=
  ofSolvers [.ofDiagrams ⟨1, [[.last 0], [.last 0]]⟩ none none]

theorem gapped_represents_elements :
    gapped.elements.size = 2 ∧ gapped.elements[1]? = some 2 ∧ gapped.dense? = none ∧
      gapped.nonFinite = 0 ∧
      let costs : Branches (Array Float32) := ⟨#[0, 0, 0, 0], #[1, 1, 1, 1]⟩
      let record : Saved (Branches (Array Float32)) := ⟨costs, forked.sizes⟩
      let sent (b : Buffer Float32) :=
        (lowerBoundsBackward record ⟨none, none, none, none, some b⟩).run forked
      sent gapped = sent gapped.packed ∧
        (sent gapped).result.toOption.map (·.lo) = some #[1, 1, 2, 2] := by
  obtain ⟨⟨size_eq, places⟩, ⟨slice, -⟩, -, finite, alike⟩ :=
    represents_elements (σ := Solver Float32) gapped
  refine ⟨size_eq, (places 1).2, slice, (finite rfl).trans (by decide +kernel), ?_, ?_⟩
  · exact congrFun (alike gapped rfl rfl _ ⟨none, none, none, none, none⟩) forked
  · decide +kernel

end Examples

end Buffer

end DualAscent
