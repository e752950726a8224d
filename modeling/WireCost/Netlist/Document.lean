import WireCost.Netlist.Build
import WireCost.Device
import WireCost.Json.Record

/-! # Netlists and devices as JSON

Ids are written as numbers, offsets as pairs and absent references as `null`. The name indices are
not written; a netlist that is read has empty ones.

* **`Netlist.toJson`, `Netlist.ofJson?`** — a netlist.
* **`Device.toJson`, `Device.ofJson?`** — a device. -/

namespace WireCost

/-! ## Parts of a netlist -/

/-- A signed word as a JSON value. -/
def Json.word (n : Int32) : Json := .integer n.toInt

/-- A location as a JSON value. -/
def Location.toJson (l : Location) : Json :=
  .object
    [("x", .word l.x), ("y", .word l.y), ("sub_tile", .word l.subTile), ("layer", .word l.layer)]

/-- The location that a JSON value holds. -/
def Location.ofJson? (j : Json) : Option Location := do
  let r ← Record.ofJson? ["x", "y", "sub_tile", "layer"] j
  let x ← r.required "x" Json.int32?
  let y ← r.required "y" Json.int32?
  let subTile ← r.required "sub_tile" Json.int32?
  let layer ← r.required "layer" Json.int32?
  some ⟨x, y, subTile, layer⟩

/-- An offset as a JSON value. -/
def Offset.toJson (o : Offset) : Json := .array [.word o.dx, .word o.dy]

/-- The offset that a JSON value holds. -/
def Offset.ofJson? : Json → Option Offset
  | .array [dx, dy] => do some ⟨← dx.int32?, ← dy.int32?⟩
  | _ => none

/-- A block id as a JSON value. -/
def BlockId.toJson (id : BlockId) : Json := .nat id.toNat

/-- The block id that a JSON value holds. -/
def BlockId.ofJson? (j : Json) : Option BlockId := j.uint32?.map BlockId.mk

/-- A net id as a JSON value. -/
def NetId.toJson (id : NetId) : Json := .nat id.toNat

/-- The net id that a JSON value holds. -/
def NetId.ofJson? (j : Json) : Option NetId := j.uint32?.map NetId.mk

/-- A pin id as a JSON value. -/
def PinId.toJson (id : PinId) : Json := .nat id.toNat

/-- The pin id that a JSON value holds. -/
def PinId.ofJson? (j : Json) : Option PinId := j.uint32?.map PinId.mk

/-- The name of a direction. -/
def PinDirection.name : PinDirection → String
  | .driver => "driver"
  | .sink => "sink"

/-- The direction that a JSON value names. -/
def PinDirection.ofJson? : Json → Option PinDirection :=
  Json.choice? ([.driver, .sink].map fun d => (d.name, d))

/-! ## Entities -/

/-- A block as a JSON value. -/
def Block.toJson (b : Block) : Json :=
  .object
    [("id", b.id.toJson), ("name", .string b.name), ("loc", b.location.toJson),
      ("pins", .array (b.pins.map PinId.toJson))]

/-- The block that a JSON value holds. -/
def Block.ofJson? (j : Json) : Option Block := do
  let r ← Record.ofJson? ["id", "name", "loc", "pins"] j
  let id ← r.required "id" BlockId.ofJson?
  let name ← r.required "name" Json.string?
  let location ← r.required "loc" Location.ofJson?
  let pins ← r.required "pins" (Json.list? PinId.ofJson?)
  some ⟨id, name, location, pins⟩

/-- A net as a JSON value. -/
def Net.toJson (n : Net) : Json :=
  .object
    [("id", n.id.toJson), ("name", .string n.name), ("driver", Json.ofOption PinId.toJson n.driver),
      ("sinks", .array (n.sinks.map PinId.toJson)), ("ignored", .bool n.ignored)]

/-- The net that a JSON value holds. -/
def Net.ofJson? (j : Json) : Option Net := do
  let r ← Record.ofJson? ["id", "name", "driver", "sinks", "ignored"] j
  let id ← r.required "id" NetId.ofJson?
  let name ← r.required "name" Json.string?
  let driver ← r.nullable "driver" PinId.ofJson?
  let sinks ← r.required "sinks" (Json.list? PinId.ofJson?)
  let ignored ← r.withDefault "ignored" false Json.bool?
  some ⟨id, name, driver, sinks, ignored⟩

/-- A pin as a JSON value. -/
def Pin.toJson (p : Pin) : Json :=
  .object
    [("id", p.id.toJson), ("block", p.block.toJson), ("net", Json.ofOption NetId.toJson p.net),
      ("direction", .string p.direction.name), ("offset", p.offset.toJson),
      ("sink_index", Json.ofOption (Json.nat ·.toNat) p.sinkIndex)]

/-- The pin that a JSON value holds. -/
def Pin.ofJson? (j : Json) : Option Pin := do
  let r ← Record.ofJson? ["id", "block", "net", "direction", "offset", "sink_index"] j
  let id ← r.required "id" PinId.ofJson?
  let block ← r.required "block" BlockId.ofJson?
  let net ← r.nullable "net" NetId.ofJson?
  let direction ← r.required "direction" PinDirection.ofJson?
  let offset ← r.withDefault "offset" .zero Offset.ofJson?
  let sinkIndex ← r.withDefault "sink_index" none (Json.nullable? Json.uint64?)
  some ⟨id, block, net, direction, offset, sinkIndex⟩

/-! ## Netlists and devices -/

/-- **A netlist as a JSON value.** -/
def Netlist.toJson (nl : Netlist) : Json :=
  .object
    [("blocks", .array (nl.blocks.toList.map Block.toJson)),
      ("nets", .array (nl.nets.toList.map Net.toJson)),
      ("pins", .array (nl.pins.toList.map Pin.toJson))]

/-- **The netlist that a JSON value holds,** without name indices. -/
def Netlist.ofJson? (j : Json) : Option Netlist := do
  let r ← Record.ofJson? ["blocks", "nets", "pins"] j
  let blocks ← r.required "blocks" (Json.list? Block.ofJson?)
  let nets ← r.required "nets" (Json.list? Net.ofJson?)
  let pins ← r.required "pins" (Json.list? Pin.ofJson?)
  some ⟨blocks.toArray, nets.toArray, pins.toArray, ∅, ∅⟩

/-- A device as a JSON value. -/
def Device.toJson (d : Device) : Json :=
  .object
    [("width", .nat d.width.toNat), ("height", .nat d.height.toNat),
      ("layers", .nat d.layers.toNat), ("chan_x", .array (d.rowTracks.map (Json.nat ·.toNat))),
      ("chan_y", .array (d.columnTracks.map (Json.nat ·.toNat)))]

/-- The device that a JSON value holds. -/
def Device.ofJson? (j : Json) : Option Device := do
  let r ← Record.ofJson? ["width", "height", "layers", "chan_x", "chan_y"] j
  let width ← r.required "width" Json.uint64?
  let height ← r.required "height" Json.uint64?
  let layers ← r.required "layers" Json.uint64?
  let rowTracks ← r.required "chan_x" (Json.list? Json.uint32?)
  let columnTracks ← r.required "chan_y" (Json.list? Json.uint32?)
  some ⟨width, height, layers, rowTracks, columnTracks⟩

end WireCost
