import DualAscent.Segment.Span

/-!
Segmentations of flat arrays. A batch stores the values of all its solvers one after the other;
how long each solver's segment is depends on what the values belong to.
-/

namespace DualAscent

/-- What the values of a flat array belong to. -/
inductive Segmentation where
  /-- One value per layer of a decision diagram. -/
  | layer
  /-- One value per decision diagram. -/
  | bdd
  /-- One value per primal variable, and one for the terminal layers. -/
  | slot
deriving DecidableEq

namespace Segmentation

/-- The word for one segment owner. -/
def noun : Segmentation → String
  | layer => "layer"
  | bdd => "bdd"
  | slot => "variable"

/-- The word for several of them. -/
def plural (kind : Segmentation) : String := kind.noun ++ "s"

end Segmentation

/-- The sizes that a solver reports. -/
structure Sizes where
  /-- Layers over all diagrams. -/
  layers : Nat
  /-- Decision diagrams. -/
  bdds : Nat
  /-- Primal variables, the terminal slot not counted. -/
  primals : Nat
deriving DecidableEq

/-- Length of the solver's segment. -/
def Sizes.segment (sizes : Sizes) : Segmentation → Nat
  | .layer => sizes.layers
  | .bdd => sizes.bdds
  | .slot => sizes.primals + 1

/-- Where the segments of a flat array lie, in batch order. -/
structure Layout where
  /-- What the values belong to. -/
  kind : Segmentation
  /-- One range per solver. -/
  spans : List Span
deriving DecidableEq

namespace Layout

/-- Segments follow each other without gaps from index zero on. -/
def ofSizes (kind : Segmentation) (sizes : List Sizes) : Layout :=
  ⟨kind, Span.consecutive 0 (sizes.map (·.segment kind))⟩

/-- Length of an array that the segments cover exactly. -/
def total (layout : Layout) : Nat := Span.finish layout.spans

/-- The segments cover an array of this length exactly. -/
def fits (layout : Layout) (length : Nat) : Bool := layout.total = length

end Layout

/-- The segments that one solver is working on, one per segmentation in play. -/
abbrev Place := List (Segmentation × Span)

/-- Each range after the plural of what it counts. -/
def Place.text (place : Place) : String :=
  ", ".intercalate (place.map fun (kind, span) => kind.plural ++ " " ++ span.text)

/-- Joins texts with commas between square brackets. -/
def bracketed (texts : List String) : String := "[" ++ ", ".intercalate texts ++ "]"

end DualAscent
