import WireCost.Json.Reader
import WireCost.Netlist.Check
import WireCost.Netlist.Document

/-! # Placement files

A placement file holds a device and a netlist placed on it.

* **`Placement`** — the contents of a file; `Placement.toJson` and `Placement.ofJson?` write and
  read them.
* **`Placement.check`** — whether the netlist is consistent, the device lists all its channels and
  every block sits on the device.
* **`Placement.ofText`** — reads and checks the text of a file. -/

namespace WireCost

/-- A device and a netlist placed on it. -/
structure Placement where
  device : Device
  netlist : Netlist

/-- Why a placement file cannot be used. -/
inductive PlacementDefect where
  /-- The file cannot be read. -/
  | unreadable (path reason : String)
  /-- The file does not hold a device and a netlist. -/
  | unparsable (path : String)
  /-- The references of the netlist do not fit. -/
  | netlist (defect : NetlistDefect)
  /-- The device does not list one channel for each of its lines. -/
  | channels (device : Device)
  /-- A block does not sit on the device. -/
  | offDevice (block : Block)
deriving Repr

/-- What is said about an unusable placement file. -/
def PlacementDefect.reason : PlacementDefect → String
  | .unreadable path reason => s!"{path}: {reason}"
  | .unparsable path => s!"{path}: not a placement"
  | .netlist defect => defect.reason
  | .channels d =>
    s!"device lists {d.rowTracks.length} x-channels and {d.columnTracks.length} y-channels " ++
      s!"for a {d.width}x{d.height} grid"
  | .offDevice b =>
    s!"block '{b.name}' at ({b.location.x}, {b.location.y}, layer {b.location.layer}) " ++
      "is off the device"

namespace Device

/-- Whether a coordinate is one of the `size` lines of a side. The size is cut down to a word
first. -/
def hasLine (size : UInt64) (v : Int32) : Bool :=
  0 ≤ v.toInt && v.toInt < Word.cut32 size.toNat

/-- Whether a location is on the device. -/
def hasLocation (d : Device) (l : Location) : Bool :=
  hasLine d.width l.x && hasLine d.height l.y && hasLine d.layers l.layer

/-- Whether the device lists one channel for each row and each column. -/
def listsChannels (d : Device) : Bool :=
  d.rowTracks.length == d.height.toNat && d.columnTracks.length == d.width.toNat

end Device

namespace Placement

/-- A placement as a JSON value. -/
def toJson (p : Placement) : Json :=
  .object [("device", p.device.toJson), ("netlist", p.netlist.toJson)]

/-- The placement that a JSON value holds, without name indices. -/
def ofJson? (j : Json) : Option Placement := do
  let r ← Record.ofJson? ["device", "netlist"] j
  let device ← r.required "device" Device.ofJson?
  let netlist ← r.required "netlist" Netlist.ofJson?
  some ⟨device, netlist⟩

/-- **Checks a placement:** the netlist, then the channels, then the blocks in order. -/
def check (p : Placement) : Except PlacementDefect Unit := do
  match p.netlist.check with
  | .error defect => .error (.netlist defect)
  | .ok () =>
    if !p.device.listsChannels then .error (.channels p.device)
    else
      match p.netlist.blocks.toList.find? fun b => !p.device.hasLocation b.location with
      | some b => .error (.offDevice b)
      | none => .ok ()

/-- **The placement that the text of a file holds,** checked and with its names indexed. -/
def ofText (path text : String) : Except PlacementDefect Placement := do
  match (Json.parse text).bind ofJson? with
  | none => .error (.unparsable path)
  | some p =>
    let p := { p with netlist := p.netlist.indexNames }
    p.check
    .ok p

end Placement

end WireCost
