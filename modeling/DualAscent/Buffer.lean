import DualAscent.Memory
import DualAscent.Scalar

/-!
Flat buffers of numbers. A buffer may hold another element type than the batched operations work
on, and may leave gaps between its elements; `elements` is what it holds in either case. Main
statements: `elements` has `length` entries, a densely packed buffer is its own sequence of
elements, and packing keeps the elements.
-/

namespace DualAscent

/-- How a buffer stores its elements. -/
inductive ElementType where
  /-- Single precision numbers. -/
  | single
  /-- Double precision numbers. -/
  | double
  /-- Signed 32-bit integers. -/
  | int
deriving DecidableEq

/-- Letter and width of the element type. -/
def ElementType.text : ElementType → String
  | single => "f32"
  | double => "f64"
  | int => "i32"

/-- Why a buffer is not densely packed in single precision. -/
inductive FormatFault where
  /-- The elements have another type. -/
  | elementType (found : ElementType)
  /-- Consecutive elements lie `stride` places apart. -/
  | gaps (stride : Nat)
deriving DecidableEq

/-- Names the fault and the offending property. -/
def FormatFault.message : FormatFault → String
  | elementType found => "argument not in FP32 format (found " ++ found.text ++ ")"
  | gaps stride => "argument not contiguous (stride " ++ toString stride ++ ")"

/-- Stored numbers of one element type. -/
inductive Storage (α : Type) where
  /-- Single precision, the working type. -/
  | single (values : Array α)
  /-- Double precision. -/
  | double (values : Array Float)
  /-- Signed 32-bit integers. -/
  | int (values : Array Int32)

namespace Storage

variable {α : Type}

/-- The element type in store. -/
def elementType : Storage α → ElementType
  | single _ => .single
  | double _ => .double
  | int _ => .int

/-- Number of stored values, gaps included. -/
def size : Storage α → Nat
  | single values => values.size
  | double values => values.size
  | int values => values.size

/-- Same element type and pairwise equal values. -/
def beq [BEq α] : Storage α → Storage α → Bool
  | single a, single b => a == b
  | double a, double b => a == b
  | int a, int b => a == b
  | _, _ => false

end Storage

/-- How many of `size` places are multiples of the stride. -/
def strideCount (size stride : Nat) : Nat := (size + stride - 1) / stride

theorem mul_lt_of_lt_strideCount {size stride i : Nat} (positive : 0 < stride)
    (below : i < strideCount size stride) : i * stride < size := by
  have bound : (i + 1) * stride ≤ size + stride - 1 :=
    (Nat.le_div_iff_mul_le positive).1 below
  rw [Nat.succ_mul] at bound
  omega

theorem strideCount_one (size : Nat) : strideCount size 1 = size := by
  simp [strideCount]

/-- The values at the multiples of the stride. -/
def everyNth {β : Type} (values : Array β) (stride : Nat) (positive : 0 < stride) : Array β :=
  Array.ofFn fun i : Fin (strideCount values.size stride) =>
    values[(⟨i.val * stride, mul_lt_of_lt_strideCount positive i.isLt⟩ : Fin values.size)]

@[simp]
theorem size_everyNth {β : Type} (values : Array β) (stride : Nat) (positive : 0 < stride) :
    (everyNth values stride positive).size = strideCount values.size stride := by
  simp [everyNth]

theorem getElem_everyNth {β : Type} (values : Array β) (stride : Nat) (positive : 0 < stride)
    (i : Nat) (inside : i < (everyNth values stride positive).size)
    (place : i * stride < values.size) :
    (everyNth values stride positive)[i] = values[i * stride] := by
  simp [everyNth]

theorem everyNth_one {β : Type} (values : Array β) : everyNth values 1 Nat.one_pos = values := by
  apply Array.ext
  · simp [strideCount_one]
  · intro i inside place
    simp [everyNth]

/-- A flat buffer: element `i` is stored at place `i * stride`. -/
structure Buffer (α : Type) where
  /-- Stored values, gaps included. -/
  storage : Storage α
  /-- Distance between consecutive elements. -/
  stride : Nat
  /-- Elements do not share a place. -/
  stride_pos : 0 < stride

/-- A slice of a buffer that can be written through. -/
structure WritableSlice (α : Type) where
  /-- What it shows. -/
  shown : Array α
  /-- The buffer after other values have been written to all its places. -/
  written : Vector α shown.size → Buffer α

namespace Buffer

variable {α : Type}

/-- The densely packed buffer of these values. -/
def ofArray (values : Array α) : Buffer α := ⟨.single values, 1, Nat.one_pos⟩

/-- A densely packed buffer of double precision numbers. -/
def ofDoubles (values : Array Float) : Buffer α := ⟨.double values, 1, Nat.one_pos⟩

/-- A densely packed buffer of integers. -/
def ofInts (values : Array Int32) : Buffer α := ⟨.int values, 1, Nat.one_pos⟩

/-- The same single precision number several times, unless that takes too much memory. -/
def replicate? (length : Nat) (value : α) : Option (Buffer α) :=
  if fitsMemory length 4 then some (ofArray (Array.replicate length value)) else none

/-- Every `stride`-th of the values, unless the stride is zero. -/
def strided? (values : Array α) (stride : Nat) : Option (Buffer α) :=
  if positive : 0 < stride then some ⟨.single values, stride, positive⟩ else none

/-- The element type in store. -/
def elementType (b : Buffer α) : ElementType := b.storage.elementType

/-- Number of elements. -/
def length (b : Buffer α) : Nat := strideCount b.storage.size b.stride

/-- There are no gaps. -/
def isContiguous (b : Buffer α) : Bool := b.stride = 1

/-- The first way in which the buffer is not densely packed in single precision. -/
def formatFault? (b : Buffer α) : Option FormatFault :=
  match b.elementType with
  | .single => if b.stride = 1 then none else some (.gaps b.stride)
  | found => some (.elementType found)

/-- The stored values, if they are the elements. -/
def dense? (b : Buffer α) : Option (Array α) :=
  match b.storage with
  | .single values => if b.stride = 1 then some values else none
  | _ => none

/-- The stored values to write through, if they are the elements: what is written takes their
places. -/
def writable? (b : Buffer α) : Option (WritableSlice α) :=
  match b.storage with
  | .single values =>
    if b.stride = 1 then
      some ⟨values, fun new => { b with storage := .single new.toArray }⟩
    else none
  | _ => none

/-- The elements as single precision numbers. -/
def elements [Scalar α] (b : Buffer α) : Array α :=
  match b.storage with
  | .single values => everyNth values b.stride b.stride_pos
  | .double values => (everyNth values b.stride b.stride_pos).map Scalar.ofDouble
  | .int values => (everyNth values b.stride b.stride_pos).map fun n => Scalar.ofInt n.toInt

/-- The densely packed buffer of the same elements. -/
def packed [Scalar α] (b : Buffer α) : Buffer α := ofArray b.elements

/-- Number of infinite or undefined elements. -/
def nonFinite [Scalar α] (b : Buffer α) : Nat :=
  match b.storage with
  | .single values => (everyNth values b.stride b.stride_pos).countP (!Scalar.isFinite ·)
  | .double values => (everyNth values b.stride b.stride_pos).countP (!Float.isFinite ·)
  | .int _ => 0

/-- The elements after one value has been written to all places of a slice, if there is one. -/
def filled? [Scalar α] (b : Buffer α) (value : α) : Option (Array α) :=
  b.writable?.map fun slice => (slice.written (Vector.replicate slice.shown.size value)).elements

/-- Equal element types, strides and stored values, gaps included. -/
instance [BEq α] : BEq (Buffer α) where
  beq a b := a.storage.beq b.storage && a.stride == b.stride

@[simp]
theorem size_elements [Scalar α] (b : Buffer α) : b.elements.size = b.length := by
  obtain ⟨storage, stride, positive⟩ := b
  cases storage <;> simp [elements, length, Storage.size]

@[simp]
theorem elements_ofArray [Scalar α] (values : Array α) : (ofArray values).elements = values :=
  everyNth_one values

@[simp]
theorem elements_packed [Scalar α] (b : Buffer α) : b.packed.elements = b.elements :=
  elements_ofArray _

end Buffer

end DualAscent
