/-! # Bounding boxes with pin counts

The box of a set of pins keeps, beside its extents, how many pins lie on each of its four edges. The
counts tell whether an edge stays where it is when a pin leaves it.

* **`Edge`** — one grid line and the number of pins on it.
* **`Span`** — the two edges of a box along one axis.
* **`EdgeBox`** — a span of columns and a span of rows. -/

namespace WireCost

/-- A grid line that bounds a box, with the number of pins on it. -/
structure Edge where
  line : Int
  pins : Nat
deriving DecidableEq, Repr, Inhabited

/-- The two edges of a box along one axis. When they lie on one line, every pin counts for both. -/
structure Span where
  low : Edge
  high : Edge
deriving DecidableEq, Repr, Inhabited

/-- A bounding box: its columns and its rows. -/
structure EdgeBox where
  x : Span
  y : Span
deriving DecidableEq, Repr, Inhabited

/-- The span of a single pin. -/
def Span.point (v : Int) : Span := ⟨⟨v, 1⟩, ⟨v, 1⟩⟩

/-- The box of a single pin. -/
def EdgeBox.point (x y : Int) : EdgeBox := ⟨.point x, .point y⟩

/-- The box that stands where no net has been measured yet. -/
def EdgeBox.blank : EdgeBox := ⟨⟨⟨0, 0⟩, ⟨0, 0⟩⟩, ⟨⟨0, 0⟩, ⟨0, 0⟩⟩⟩

/-- The extents of a box: first and last column, first and last row. -/
def EdgeBox.extents (b : EdgeBox) : Int × Int × Int × Int :=
  (b.x.low.line, b.x.high.line, b.y.low.line, b.y.high.line)

/-- Whether some edge of the box has no pin. -/
def EdgeBox.hasBareEdge (b : EdgeBox) : Bool :=
  b.x.low.pins = 0 || b.x.high.pins = 0 || b.y.low.pins = 0 || b.y.high.pins = 0

/-- An edge as it is shown: its line with the pin count in brackets. -/
def Edge.toText (e : Edge) : String := s!"{e.line}({e.pins})"

/-- A span as it is shown. -/
def Span.toText (s : Span) : String := s!"[{s.low.toText}, {s.high.toText}]"

/-- A box as it is shown. -/
def EdgeBox.toText (b : EdgeBox) : String := s!"x{b.x.toText} y{b.y.toText}"

/-- A box in the long form of mismatch reports, every number with its name. -/
def EdgeBox.toRecord (b : EdgeBox) : String :=
  "NetBox \x7b " ++ ", ".intercalate
    [s!"xmin: {b.x.low.line}", s!"xmax: {b.x.high.line}",
      s!"ymin: {b.y.low.line}", s!"ymax: {b.y.high.line}",
      s!"xmin_edge: {b.x.low.pins}", s!"xmax_edge: {b.x.high.pins}",
      s!"ymin_edge: {b.y.low.pins}", s!"ymax_edge: {b.y.high.pins}"] ++ " \x7d"

end WireCost
