import WireCost.Geometry.Basic

/-! # Committed and proposed geometries

A move is tried on a proposed copy of the geometries and takes effect only when it is committed.

* **`GeometryTable`** — the committed and the proposed geometry of every net, all of one form.
* **`GeometryTable.load`, `GeometryTable.propose`** — scan a net into one of the two sides.
* **`GeometryTable.shift`** — moves one pin on the proposed side.
* **`GeometryTable.commit`** — makes the proposed geometry of a net the committed one. -/

namespace WireCost

/-- The geometries of all nets, twice: as committed and as proposed. -/
structure GeometryTable where
  form : BoxForm
  layers : Nat
  committed : Array Geometry
  proposed : Array Geometry
deriving Repr, Inhabited

namespace GeometryTable

/-- Refuses more geometries than can be told: a box takes 32 bytes, and a sink count four. -/
def requireRoom (form : BoxForm) (nets layers : Nat) : Checked Unit := do
  let boxes ← Word.nat64 (nets * form.boxCount layers)
  Word.requireRoom 32 boxes
  let counts ← Word.nat64 (nets * layers)
  Word.requireRoom 4 counts

/-- A table for `nets` nets, none of them measured yet. -/
def blank (form : BoxForm) (nets layers : Nat) : Checked GeometryTable := do
  requireRoom form nets layers
  .ok {
    form
    layers
    committed := (Array.range nets).map fun _ => .blank form layers
    proposed := (Array.range nets).map fun _ => .blank form layers }

/-- The committed geometry of a net. -/
def committedOf (t : GeometryTable) (net : NetId) : Checked Geometry := entry t.committed net.toNat

/-- The proposed geometry of a net. -/
def proposedOf (t : GeometryTable) (net : NetId) : Checked Geometry := entry t.proposed net.toNat

/-- The geometry that the pins of a net give now. -/
def scan (t : GeometryTable) (nl : Netlist) (interior : Interior) (net : NetId) :
    Checked Geometry := do
  Geometry.scan t.form t.layers (← nl.sitesOf interior net)

/-- **Scans a net into its committed side.** -/
def load (t : GeometryTable) (nl : Netlist) (interior : Interior) (net : NetId) :
    Checked GeometryTable := do
  let _ ← t.committedOf net
  let g ← t.scan nl interior net
  .ok { t with committed := t.committed.setIfInBounds net.toNat g }

/-- **Scans a net into its proposed side.** -/
def propose (t : GeometryTable) (nl : Netlist) (interior : Interior) (net : NetId) :
    Checked GeometryTable := do
  let _ ← t.proposedOf net
  let g ← t.scan nl interior net
  .ok { t with proposed := t.proposed.setIfInBounds net.toNat g }

/-- **Moves one pin on the proposed side of a net,** which starts from the committed side when
`fresh`. The flag tells whether the geometry could follow; if not, the net has to be scanned
again. -/
def shift (t : GeometryTable) (net : NetId) (fresh : Bool) (p : PinShift) :
    Checked (GeometryTable × Bool) := do
  let base ← if fresh then t.committedOf net else t.proposedOf net
  let (g, followed) ← Geometry.shift t.form base p
  .ok ({ t with proposed := t.proposed.setIfInBounds net.toNat g }, followed)

/-- **Makes the proposed geometry of a net the committed one.** -/
def commit (t : GeometryTable) (net : NetId) : Checked GeometryTable := do
  let g ← t.proposedOf net
  .ok { t with committed := t.committed.setIfInBounds net.toNat g }

/-- Whether both sides of a net are the same. -/
def agrees (t : GeometryTable) (net : NetId) : Checked Bool := do
  .ok ((← t.committedOf net) == (← t.proposedOf net))

section

variable {α : Type} [CostScalar α]

/-- The cost of the committed geometry of a net. -/
def committedCost (t : GeometryTable) (factors : ChannelFactors α) (net : NetId) : Checked α := do
  (← t.committedOf net).cost t.form factors

/-- The cost of the proposed geometry of a net. -/
def proposedCost (t : GeometryTable) (factors : ChannelFactors α) (net : NetId) : Checked α := do
  (← t.proposedOf net).cost t.form factors

/-- The wirelength estimate of the committed geometry of a net. -/
def committedLength (t : GeometryTable) (net : NetId) : Checked α := do
  (← t.committedOf net).wirelength t.form

end

end GeometryTable

end WireCost
