import WireCost.Geometry.Table

/-! # Geometries in flat storage

The geometries of all nets stand side by side, the boxes in one array and the sink counts in
another. A net owns as many boxes as its form takes and as many counts as there are layers, so the
two arrays have strides of their own. `GeometryTable` keeps the same geometries one by one.

* **`slice`, `overwrite`** — a part of an array, read and written.
* **`GeometryBuffer`** — the geometries of all nets, and `GeometryBuffer.read` and
  `GeometryBuffer.write` for that of one net.
* **`GeometryStore`** — a buffer for what is committed and one for what is proposed.
* **`GeometryStore.load`, `GeometryStore.propose`, `GeometryStore.shift`, `GeometryStore.commit`** —
  the operations on a net. -/

namespace WireCost

/-! ## Parts of an array -/

section

variable {value : Type}

/-- A part of an array, which has to lie inside it. -/
def slice (xs : Array value) (first count : Nat) : Checked (List value) := do
  require (first + count ≤ xs.size) .outOfRange
  .ok (xs.extract first (first + count)).toList

/-- Writes items side by side, from a position on. -/
def overwrite (xs : Array value) (first : Nat) : List value → Array value
  | [] => xs
  | y :: ys => overwrite (xs.setIfInBounds first y) (first + 1) ys

end

/-- Where the items of a net start in an array that has so many of them for each net. -/
def NetId.firstOf (net : NetId) (stride : Nat) : Checked Nat := do
  let first ← Word.nat64 (net.toNat * stride)
  let _ ← Word.nat64 (first + stride)
  .ok first

/-! ## Buffers -/

/-- The geometries of all nets, side by side. -/
structure GeometryBuffer where
  boxes : Array EdgeBox
  sinks : Array Int
deriving DecidableEq, Repr, Inhabited

namespace GeometryBuffer

/-- A buffer for `nets` nets, none of them measured yet. -/
def blank (form : BoxForm) (nets layers : Nat) : GeometryBuffer where
  boxes := .replicate (nets * form.boxCount layers) .blank
  sinks := .replicate (nets * layers) 0

/-- The geometry of a net. -/
def read (form : BoxForm) (layers : Nat) (b : GeometryBuffer) (net : NetId) :
    Checked Geometry := do
  let boxes ← slice b.boxes (← net.firstOf (form.boxCount layers)) (form.boxCount layers)
  let sinks ← slice b.sinks (← net.firstOf layers) layers
  .ok ⟨boxes, sinks⟩

/-- Replaces the geometry of a net. -/
def write (form : BoxForm) (layers : Nat) (b : GeometryBuffer) (net : NetId) (g : Geometry) :
    Checked GeometryBuffer := do
  let firstBox ← net.firstOf (form.boxCount layers)
  let firstSink ← net.firstOf layers
  .ok ⟨overwrite b.boxes firstBox g.boxes, overwrite b.sinks firstSink g.sinks⟩

end GeometryBuffer

/-! ## Both sides -/

/-- The geometries of all nets, twice: as committed and as proposed. -/
structure GeometryStore where
  form : BoxForm
  layers : Nat
  committed : GeometryBuffer
  proposed : GeometryBuffer
deriving DecidableEq, Repr, Inhabited

namespace GeometryStore

/-- A store for `nets` nets, none of them measured yet. -/
def blank (form : BoxForm) (nets layers : Nat) : Checked GeometryStore := do
  GeometryTable.requireRoom form nets layers
  .ok ⟨form, layers, .blank form nets layers, .blank form nets layers⟩

/-- The committed geometry of a net. -/
def committedOf (s : GeometryStore) (net : NetId) : Checked Geometry :=
  s.committed.read s.form s.layers net

/-- The proposed geometry of a net. -/
def proposedOf (s : GeometryStore) (net : NetId) : Checked Geometry :=
  s.proposed.read s.form s.layers net

/-- Replaces the committed geometry of a net. -/
def putCommitted (s : GeometryStore) (net : NetId) (g : Geometry) : Checked GeometryStore := do
  .ok { s with committed := ← s.committed.write s.form s.layers net g }

/-- Replaces the proposed geometry of a net. -/
def putProposed (s : GeometryStore) (net : NetId) (g : Geometry) : Checked GeometryStore := do
  .ok { s with proposed := ← s.proposed.write s.form s.layers net g }

/-- The geometry that the pins of a net give now. -/
def scan (s : GeometryStore) (nl : Netlist) (interior : Interior) (net : NetId) :
    Checked Geometry := do
  Geometry.scan s.form s.layers (← nl.sitesOf interior net)

/-- **Scans a net into its committed side.** -/
def load (s : GeometryStore) (nl : Netlist) (interior : Interior) (net : NetId) :
    Checked GeometryStore := do
  let _ ← s.committedOf net
  s.putCommitted net (← s.scan nl interior net)

/-- **Scans a net into its proposed side.** -/
def propose (s : GeometryStore) (nl : Netlist) (interior : Interior) (net : NetId) :
    Checked GeometryStore := do
  let _ ← s.proposedOf net
  s.putProposed net (← s.scan nl interior net)

/-- Copies the committed side of a net to its proposed side. -/
def restart (s : GeometryStore) (net : NetId) : Checked GeometryStore := do
  let _ ← s.proposedOf net
  s.putProposed net (← s.committedOf net)

/-- **Moves one pin on the proposed side of a net,** which starts from the committed side when
`fresh`. The flag tells whether the geometry could follow; if not, the net has to be scanned
again. -/
def shift (s : GeometryStore) (net : NetId) (fresh : Bool) (p : PinShift) :
    Checked (GeometryStore × Bool) := do
  let s ← if fresh then s.restart net else .ok s
  let (g, followed) ← Geometry.shift s.form (← s.proposedOf net) p
  .ok (← s.putProposed net g, followed)

/-- **Makes the proposed geometry of a net the committed one.** -/
def commit (s : GeometryStore) (net : NetId) : Checked GeometryStore := do
  let _ ← s.committedOf net
  s.putCommitted net (← s.proposedOf net)

/-- Whether both sides of a net are the same. -/
def agrees (s : GeometryStore) (net : NetId) : Checked Bool := do
  .ok ((← s.committedOf net) == (← s.proposedOf net))

section

variable {α : Type} [CostScalar α]

/-- The cost of the committed geometry of a net. -/
def committedCost (s : GeometryStore) (factors : ChannelFactors α) (net : NetId) : Checked α := do
  (← s.committedOf net).cost s.form factors

/-- The cost of the proposed geometry of a net. -/
def proposedCost (s : GeometryStore) (factors : ChannelFactors α) (net : NetId) : Checked α := do
  (← s.proposedOf net).cost s.form factors

/-- The wirelength estimate of the committed geometry of a net. -/
def committedLength (s : GeometryStore) (net : NetId) : Checked α := do
  (← s.committedOf net).wirelength s.form

end

end GeometryStore

end WireCost
