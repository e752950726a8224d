import WireCost.Location

/-! # Devices and their routable interior

* **`Device`** — the grid, its layers, and the routing tracks of every channel.
* **`Interior`** — the columns and rows in which nets are routed: all but the perimeter.
* **`Interior.clip`** — pins on the perimeter count as if they sat on the nearest interior line,
  because routing to them uses the channel beside it. -/

namespace WireCost

/-! ## Devices -/

/-- A rectangular device with a track count for every channel. -/
structure Device where
  width : UInt64
  height : UInt64
  layers : UInt64
  /-- Tracks of the horizontal channels, one for each row. -/
  rowTracks : List UInt32
  /-- Tracks of the vertical channels, one for each column. -/
  columnTracks : List UInt32
deriving DecidableEq, Repr, Inhabited

namespace Device

/-- A device with the same number of tracks in every channel, at four bytes a channel. -/
def uniform (width height layers : UInt64) (tracks : UInt32) : Checked Device := do
  Word.requireRoom 4 height.toNat
  Word.requireRoom 4 width.toNat
  .ok {
    width
    height
    layers
    rowTracks := List.replicate height.toNat tracks
    columnTracks := List.replicate width.toNat tracks }

/-- Changes the tracks of the horizontal channel at row `y`. -/
def setRowTracks (d : Device) (y : Nat) (tracks : UInt32) : Checked Device := do
  .ok { d with rowTracks := ← change d.rowTracks y fun _ => .ok tracks }

/-- Changes the tracks of the vertical channel at column `x`. -/
def setColumnTracks (d : Device) (x : Nat) (tracks : UInt32) : Checked Device := do
  .ok { d with columnTracks := ← change d.columnTracks x fun _ => .ok tracks }

/-- The tracks of the horizontal channel at row `y`; a channel that is not listed has none. -/
def tracksOfRow (d : Device) (y : Nat) : Nat := (d.rowTracks[y]?.getD 0).toNat

/-- The tracks of the vertical channel at column `x`; a channel that is not listed has none. -/
def tracksOfColumn (d : Device) (x : Nat) : Nat := (d.columnTracks[x]?.getD 0).toNat

end Device

/-! ## The interior -/

/-- Why a device cannot hold a placement. -/
inductive DeviceDefect where
  /-- There is no row or no column inside the perimeter. -/
  | noInterior (width height : Nat)
  /-- There is no layer. -/
  | noLayers
deriving DecidableEq, Repr

/-- What is said about an unusable device. -/
def DeviceDefect.reason : DeviceDefect → String
  | .noInterior width height => s!"{width}x{height} grid has no routable interior"
  | .noLayers => "device has no layers"

/-- The routable interior: columns `1` to `columns`, rows `1` to `rows`, and all layers. -/
structure Interior where
  columns : Int
  rows : Int
  layers : Nat
deriving DecidableEq, Repr, Inhabited

namespace Interior

/-- The last interior line of a side with `size` lines, of which the outer two are the perimeter.
The size is cut down to a word first. -/
def lastLine (size : UInt64) : Checked Int := Word.int32 (Word.cut32 size.toNat - 2)

/-- **The interior of a device,** or why it has none. -/
def ofDevice (d : Device) : Checked (Except DeviceDefect Interior) :=
  if d.width < 3 ∨ d.height < 3 then .ok (.error (.noInterior d.width.toNat d.height.toNat))
  else if d.layers = 0 then .ok (.error .noLayers)
  else do
    let columns ← lastLine d.width
    let rows ← lastLine d.height
    .ok (.ok ⟨columns, rows, d.layers.toNat⟩)

/-- The line of `1..=last` that is nearest to `v`; there is none when the range is empty. -/
def clamp (last v : Int) : Checked Int :=
  if last < 1 then .error .emptyRange
  else if v < 1 then .ok 1
  else if last < v then .ok last
  else .ok v

/-- Whether a layer belongs to the device. -/
def HasLayer (i : Interior) (layer : Int) : Prop := 0 ≤ layer ∧ layer < i.layers

instance (i : Interior) (layer : Int) : Decidable (i.HasLayer layer) :=
  inferInstanceAs (Decidable (_ ∧ _))

/-- **The interior site nearest to a pin.** The layer is kept and has to exist. -/
def clip (i : Interior) (s : Site) : Checked Site := do
  require (i.HasLayer s.layer) (.layerOffDevice s.layer)
  let x ← clamp i.columns s.x
  let y ← clamp i.rows s.y
  .ok ⟨x, y, s.layer⟩

/-- Whether the extents are in order and inside the interior. -/
def contains (i : Interior) (xmin xmax ymin ymax : Int) : Bool :=
  1 ≤ xmin && xmin ≤ xmax && xmax ≤ i.columns && 1 ≤ ymin && ymin ≤ ymax && ymax ≤ i.rows

/-- Whether a box lies inside the interior. -/
def containsBox (i : Interior) (b : EdgeBox) : Bool :=
  i.contains b.x.low.line b.x.high.line b.y.low.line b.y.high.line

end Interior

end WireCost
