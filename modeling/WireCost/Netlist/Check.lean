import WireCost.Netlist.Basic

/-! # Structural consistency of a netlist

* **`NetlistDefect`** — what can be wrong with the references between blocks, nets and pins.
* **`Netlist.check`** — every net has a driver, and pins, nets and blocks agree about each other;
  the first defect found is reported. -/

namespace WireCost

/-- A reference that does not fit. -/
inductive NetlistDefect where
  /-- A net has no driver. -/
  | undriven (net : String)
  /-- The driver of a net does not exist. -/
  | missingDriver (net : String) (pin : PinId)
  /-- The driver of a net is a pin of another net, or not a driver. -/
  | foreignDriver (net : String) (pin : PinId)
  /-- A sink of a net does not exist. -/
  | missingSink (net : String) (pin : PinId)
  /-- A sink of a net is a pin of another net, or has another position. -/
  | foreignSink (net : String) (pin : PinId)
  /-- The block of a pin does not exist. -/
  | missingBlock (pin : PinId) (block : BlockId)
  /-- The block of a pin does not list it. -/
  | unlistedPin (pin : PinId) (block : String)
deriving DecidableEq, Repr

/-- What is said about a defect. -/
def NetlistDefect.reason : NetlistDefect → String
  | .undriven net => s!"net '{net}' has no driver"
  | .missingDriver net pin => s!"net '{net}' driver pin {pin.index} does not exist"
  | .foreignDriver net pin => s!"net '{net}' driver pin {pin.index} is not its driver"
  | .missingSink net pin => s!"net '{net}' sink pin {pin.index} does not exist"
  | .foreignSink net pin => s!"net '{net}' sink pin {pin.index} is inconsistent"
  | .missingBlock pin block => s!"pin {pin.index} refers to missing block {block.index}"
  | .unlistedPin pin block => s!"pin {pin.index} is not listed on block '{block}'"

namespace Netlist

/-- Checks the driver of a net. -/
def checkDriver (nl : Netlist) (net : Net) : Except NetlistDefect Unit :=
  match net.driver with
  | none => .error (.undriven net.name)
  | some id =>
    match nl.pins[id.toNat]? with
    | none => .error (.missingDriver net.name id)
    | some pin =>
      if pin.net = some net.id ∧ pin.direction = .driver then .ok ()
      else .error (.foreignDriver net.name id)

/-- Checks the sink of a net at a position. -/
def checkSink (nl : Netlist) (net : Net) (sink : PinId) (position : Nat) :
    Except NetlistDefect Unit :=
  match nl.pins[sink.toNat]? with
  | none => .error (.missingSink net.name sink)
  | some pin =>
    if pin.net = some net.id ∧ pin.sinkIndex.map (·.toNat) = some position then .ok ()
    else .error (.foreignSink net.name sink)

/-- Checks a net. -/
def checkNet (nl : Netlist) (net : Net) : Except NetlistDefect Unit := do
  nl.checkDriver net
  net.sinks.zipIdx.forM fun (sink, position) => nl.checkSink net sink position

/-- Checks that the block of a pin lists it. -/
def checkPin (nl : Netlist) (pin : Pin) : Except NetlistDefect Unit :=
  match nl.blocks[pin.block.toNat]? with
  | none => .error (.missingBlock pin.id pin.block)
  | some block =>
    if pin.id ∈ block.pins then .ok () else .error (.unlistedPin pin.id block.name)

/-- **Checks a netlist:** all nets in order, then all pins in order. -/
def check (nl : Netlist) : Except NetlistDefect Unit := do
  nl.nets.toList.forM nl.checkNet
  nl.pins.toList.forM nl.checkPin

end Netlist

end WireCost
