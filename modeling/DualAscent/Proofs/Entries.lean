import DualAscent.Costs

/-!
# Entries of families

Families of a fixed length are read by position, so that two of them are equal as soon as all
their entries are.
-/

namespace DualAscent

variable {α β : Type} {n : Nat}

@[simp]
theorem get_map (f : α → β) (values : Vector α n) (l : Fin n) :
    (values.map f).get l = f (values.get l) :=
  Vector.getElem_map f l.isLt

@[simp]
theorem get_ofFn (f : Fin n → α) (l : Fin n) : (Vector.ofFn f).get l = f l :=
  Vector.getElem_ofFn l.isLt

@[simp]
theorem get_replicate (value : α) (l : Fin n) : (Vector.replicate n value).get l = value :=
  Vector.getElem_replicate l.isLt

theorem ext_get {first second : Vector α n} (same : ∀ l, first.get l = second.get l) :
    first = second :=
  Vector.ext fun l inside => same ⟨l, inside⟩

end DualAscent
