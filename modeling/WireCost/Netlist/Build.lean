import WireCost.Move

/-! # Building and placing a netlist

* **`Netlist.addBlock`, `Netlist.addNet`** — new entities, which take the next free ids.
* **`Netlist.connectDriver`, `Netlist.connectSink`, `Netlist.addOpenPin`** — new pins.
* **`Netlist.place`**, **`Netlist.apply`**, **`Netlist.revert`** — new locations.
* **`Netlist.indexNames`** — rebuilds the name indices of a netlist that was read from a file. -/

namespace WireCost.Netlist

/-! ## Blocks and nets -/

/-- Adds a block. -/
def addBlock (nl : Netlist) (name : String) (location : Location) : Netlist × BlockId :=
  let id := BlockId.ofNat nl.blocks.size
  ({ nl with
      blocks := nl.blocks.push ⟨id, name, location, []⟩
      blockNames := nl.blockNames.insert name id }, id)

/-- Adds a net without pins. -/
def addNet (nl : Netlist) (name : String) : Netlist × NetId :=
  let id := NetId.ofNat nl.nets.size
  ({ nl with
      nets := nl.nets.push ⟨id, name, none, [], false⟩
      netNames := nl.netNames.insert name id }, id)

/-- Changes a net. -/
def updateNet (nl : Netlist) (id : NetId) (f : Net → Net) : Checked Netlist := do
  let _ ← nl.net id
  .ok { nl with nets := nl.nets.modify id.toNat f }

/-- Changes a block. -/
def updateBlock (nl : Netlist) (id : BlockId) (f : Block → Block) : Checked Netlist := do
  let _ ← nl.block id
  .ok { nl with blocks := nl.blocks.modify id.toNat f }

/-- Leaves a net out of all costs, or takes it in again. -/
def setIgnored (nl : Netlist) (id : NetId) (ignored : Bool) : Checked Netlist :=
  nl.updateNet id fun net => { net with ignored }

/-! ## Pins -/

/-- Adds a pin to the pin table and to its block. -/
def addPin (nl : Netlist) (block : BlockId) (net : Option NetId) (direction : PinDirection)
    (offset : Offset) (sinkIndex : Option UInt64) : Checked (Netlist × PinId) := do
  let id := PinId.ofNat nl.pins.size
  let nl := { nl with pins := nl.pins.push ⟨id, block, net, direction, offset, sinkIndex⟩ }
  let nl ← nl.updateBlock block fun b => { b with pins := b.pins ++ [id] }
  .ok (nl, id)

/-- **Adds a pin that drives a net,** which must not have a driver yet. -/
def connectDriver (nl : Netlist) (net : NetId) (block : BlockId) (offset : Offset) :
    Checked (Netlist × PinId) := do
  let old ← nl.net net
  require (old.driver = none) (.duplicateDriver old.name)
  let (nl, id) ← nl.addPin block (some net) .driver offset none
  .ok (← nl.updateNet net fun n => { n with driver := some id }, id)

/-- **Adds a pin that is a sink of a net,** behind its other sinks. -/
def connectSink (nl : Netlist) (net : NetId) (block : BlockId) (offset : Offset) :
    Checked (Netlist × PinId) := do
  let old ← nl.net net
  let (nl, id) ← nl.addPin block (some net) .sink offset (some (.ofNat old.sinks.length))
  .ok (← nl.updateNet net fun n => { n with sinks := n.sinks ++ [id] }, id)

/-- Adds a pin that is not connected to any net. -/
def addOpenPin (nl : Netlist) (block : BlockId) : Checked (Netlist × PinId) :=
  nl.addPin block none .sink .zero none

/-! ## Locations -/

/-- Relocates a block. -/
def place (nl : Netlist) (id : BlockId) (location : Location) : Checked Netlist :=
  nl.updateBlock id fun b => { b with location }

/-- Puts every block of a move at its new location. -/
def apply (nl : Netlist) (m : Move) : Checked Netlist :=
  m.relocations.foldlM (fun nl r => nl.place r.block r.target) nl

/-- Puts every block of a move back at its old location. -/
def revert (nl : Netlist) (m : Move) : Checked Netlist :=
  m.relocations.foldlM (fun nl r => nl.place r.block r.source) nl

/-! ## Names -/

/-- Rebuilds both name indices from the tables. -/
def indexNames (nl : Netlist) : Netlist :=
  { nl with
    blockNames := nl.blocks.toList.zipIdx.foldl
      (fun names (b, i) => names.insert b.name (.ofNat i)) ∅
    netNames := nl.nets.toList.zipIdx.foldl
      (fun names (n, i) => names.insert n.name (.ofNat i)) ∅ }

end WireCost.Netlist
