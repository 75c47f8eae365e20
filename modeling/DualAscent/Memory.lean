/-!
How much memory may be asked for at once. An array of more than `mostBytes` bytes cannot exist, so
a request for one is refused before any of it is set aside.
-/

namespace DualAscent

/-- The largest size of an array in bytes. -/
def mostBytes : Nat := 0x7fffffffffffffff

/-- An array can hold so many elements of so many bytes each. -/
def fitsMemory (count width : Nat) : Bool := count * width ≤ mostBytes

end DualAscent
