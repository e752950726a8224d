import Std.Data.HashMap
import WireCost.Location

/-! # Netlists

A netlist holds blocks, nets and pins. An id is the position of its entity in the table of its kind,
and the three tables refer to each other by ids.

* **`Block`**, **`Net`**, **`Pin`** — the entities.
* **`Netlist`** — the tables, with an index from names to ids for blocks and for nets.
* **`Netlist.siteOf`** — where a pin is: the location of its block, moved by its offset. -/

namespace WireCost

/-! ## Ids -/

/-- The id of a block. -/
structure BlockId where
  index : UInt32
deriving DecidableEq, Repr, Hashable, Inhabited

/-- The id of a net. -/
structure NetId where
  index : UInt32
deriving DecidableEq, Repr, Hashable, Inhabited

/-- The id of a pin. -/
structure PinId where
  index : UInt32
deriving DecidableEq, Repr, Hashable, Inhabited

/-- The position of a block. -/
def BlockId.toNat (id : BlockId) : Nat := id.index.toNat

/-- The position of a net. -/
def NetId.toNat (id : NetId) : Nat := id.index.toNat

/-- The position of a pin. -/
def PinId.toNat (id : PinId) : Nat := id.index.toNat

/-- The id of the block at a position. -/
def BlockId.ofNat (n : Nat) : BlockId := ⟨.ofNat n⟩

/-- The id of the net at a position. -/
def NetId.ofNat (n : Nat) : NetId := ⟨.ofNat n⟩

/-- The id of the pin at a position. -/
def PinId.ofNat (n : Nat) : PinId := ⟨.ofNat n⟩

/-! ## Entities -/

/-- Whether a pin drives its net or is driven by it. -/
inductive PinDirection where
  | driver
  | sink
deriving DecidableEq, Repr, Inhabited

/-- A placed block. -/
structure Block where
  id : BlockId
  name : String
  location : Location
  /-- The pins on this block. -/
  pins : List PinId
deriving DecidableEq, Repr, Inhabited

/-- A net: one driver and any number of sinks. -/
structure Net where
  id : NetId
  name : String
  driver : Option PinId
  /-- The sinks; the position of a sink numbers its connection. -/
  sinks : List PinId
  /-- Whether the net is left out of all costs. -/
  ignored : Bool
deriving DecidableEq, Repr, Inhabited

/-- A pin of a block. -/
structure Pin where
  id : PinId
  block : BlockId
  /-- The net that the pin is connected to, if any. -/
  net : Option NetId
  direction : PinDirection
  /-- The place of the pin relative to its block. -/
  offset : Offset
  /-- The position in the sinks of its net, for a sink. -/
  sinkIndex : Option UInt64
deriving DecidableEq, Repr, Inhabited

/-- A netlist with a location for every block. -/
structure Netlist where
  blocks : Array Block
  nets : Array Net
  pins : Array Pin
  /-- From block names to ids; of equal names the last one counts. -/
  blockNames : Std.HashMap String BlockId
  /-- From net names to ids; of equal names the last one counts. -/
  netNames : Std.HashMap String NetId

namespace Netlist

/-- A netlist without blocks, nets and pins. -/
def empty : Netlist := ⟨#[], #[], #[], ∅, ∅⟩

instance : Inhabited Netlist := ⟨empty⟩

/-! ## Looking things up -/

/-- The block with an id. -/
def block (nl : Netlist) (id : BlockId) : Checked Block := entry nl.blocks id.toNat

/-- The net with an id. -/
def net (nl : Netlist) (id : NetId) : Checked Net := entry nl.nets id.toNat

/-- The pin with an id. -/
def pin (nl : Netlist) (id : PinId) : Checked Pin := entry nl.pins id.toNat

/-- The driver of a net. -/
def driverOf (nl : Netlist) (id : NetId) : Checked PinId := do
  let net ← nl.net id
  match net.driver with
  | some pin => .ok pin
  | none => .error (.noDriver net.name)

/-- **Where a pin is.** -/
def siteOf (nl : Netlist) (id : PinId) : Checked Site := do
  let pin ← nl.pin id
  let block ← nl.block pin.block
  block.location.siteAt pin.offset

/-- The last block with a name. -/
def findBlock? (nl : Netlist) (name : String) : Option BlockId := nl.blockNames[name]?

/-- The last net with a name. -/
def findNet? (nl : Netlist) (name : String) : Option NetId := nl.netNames[name]?

end Netlist

end WireCost
