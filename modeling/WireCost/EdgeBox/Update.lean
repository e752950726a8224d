import WireCost.Fault

/-! # Editing a box one pin at a time

Each edit is exact: it yields the box of the changed set of pins, or says that only a rescan of the
pins can tell, which is the case when a pin leaves an edge that it alone occupies.

* **`Edge.take`, `Edge.leave?`** — a pin comes to an edge or leaves it.
* **`Span.include`, `Span.exclude?`, `Span.shift?`** — the edits along one axis.
* **`EdgeBox.include`, `EdgeBox.exclude?`, `EdgeBox.shift?`** — the edits of a box. -/

namespace WireCost

/-! ## One edge -/

/-- A pin comes to line `v`. If that lies beyond the edge, the edge moves there and the pin is its
only one; on the edge, the pin is counted. -/
def Edge.take (e : Edge) (beyond : Bool) (v : Int) : Checked Edge :=
  if beyond then .ok ⟨v, 1⟩
  else if v = e.line then (Word.nat32 (e.pins + 1)).map (⟨e.line, ·⟩)
  else .ok e

/-- A pin leaves line `v`; there is no answer when it was the only pin on the edge. -/
def Edge.leave? (e : Edge) (v : Int) : Checked (Option Edge) :=
  if v = e.line then
    if e.pins = 1 then .ok none
    else (Word.pred e.pins).map fun pins => some ⟨e.line, pins⟩
  else .ok (some e)

/-! ## One axis -/

/-- A pin at `v` joins the span. -/
def Span.include (s : Span) (v : Int) : Checked Span := do
  let low ← s.low.take (v < s.low.line) v
  let high ← s.high.take (s.high.line < v) v
  .ok ⟨low, high⟩

/-- A pin at `v` leaves the span. The two edges are tested on their own, so a span of one line loses
the pin from both. -/
def Span.exclude? (s : Span) (v : Int) : Checked (Option Span) := do
  match ← s.low.leave? v with
  | none => .ok none
  | some low =>
    match ← s.high.leave? v with
    | none => .ok none
    | some high => .ok (some ⟨low, high⟩)

/-- A pin of the span moves from `old` to `new`: it leaves the edge behind it and may come to the
edge ahead of it. -/
def Span.shift? (s : Span) (old new : Int) : Checked (Option Span) := do
  if new < old then
    match ← s.high.leave? old with
    | none => .ok none
    | some high => .ok (some ⟨← s.low.take (new < s.low.line) new, high⟩)
  else if old < new then
    match ← s.low.leave? old with
    | none => .ok none
    | some low => .ok (some ⟨low, ← s.high.take (s.high.line < new) new⟩)
  else .ok (some s)

/-! ## Both axes -/

/-- **A pin joins the box.** -/
def EdgeBox.include (b : EdgeBox) (x y : Int) : Checked EdgeBox := do
  .ok ⟨← b.x.include x, ← b.y.include y⟩

/-- **A pin leaves the box;** there is no answer when it was alone on some edge. -/
def EdgeBox.exclude? (b : EdgeBox) (x y : Int) : Checked (Option EdgeBox) := do
  match ← b.x.exclude? x with
  | none => .ok none
  | some columns =>
    match ← b.y.exclude? y with
    | none => .ok none
    | some rows => .ok (some ⟨columns, rows⟩)

/-- **A pin of the box moves;** there is no answer when it leaves an edge that it alone occupies,
away from that edge. -/
def EdgeBox.shift? (b : EdgeBox) (old new : Int × Int) : Checked (Option EdgeBox) := do
  match ← b.x.shift? old.1 new.1 with
  | none => .ok none
  | some columns =>
    match ← b.y.shift? old.2 new.2 with
    | none => .ok none
    | some rows => .ok (some ⟨columns, rows⟩)

end WireCost
