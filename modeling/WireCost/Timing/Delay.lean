import WireCost.Netlist.Basic
import WireCost.Scalar

/-! # Connection delays and criticalities

A connection runs from the driver of a net to one of its sinks; sinks number the connections.

* **`DelayModel`** — the delay of a connection at a placement; **`manhattan`** is one.
* **`Netlist.endsOf`** — where the two ends of a connection are.
* **`Criticality`** — the weight of every connection, in one flat table over all nets.
* **`connectionOffsets`** — where the connections of each net start in a flat table. -/

namespace WireCost

variable {δ α : Type} [DelayScalar δ α]

/-! ## Delays -/

/-- **A model of delays:** what the connection from the driver of a net to one of its sinks takes at
a placement. -/
abbrev DelayModel (δ : Type) := Netlist → NetId → Nat → Checked δ

/-- The sites of the two ends of a connection, its driver and its sink. -/
def Netlist.endsOf (nl : Netlist) (net : NetId) (sink : Nat) : Checked (Site × Site) := do
  let driver ← nl.siteOf (← nl.driverOf net)
  let pin ← entry (← nl.net net).sinks sink
  .ok (driver, ← nl.siteOf pin)

/-- The coefficients of a delay that is linear in distance. -/
structure LinearDelay (δ : Type) where
  /-- The delay of a connection of length zero. -/
  base : δ
  /-- The delay of each grid unit of distance. -/
  perTile : δ
  /-- The delay of each layer crossed. -/
  perLayer : δ
deriving Repr, Inhabited

/-- The coefficients in use unless others are given. -/
def LinearDelay.standard : LinearDelay Float32 := ⟨0.1, 0.05, 0.2⟩

/-- The distance of two coordinates. -/
def gap (a b : Int) : Checked Int := do
  Word.int32 ((← Word.int32 (a - b)).natAbs)

/-- The delay between two sites, linear in the distance along the grid and in the number of layers
crossed. -/
def LinearDelay.between (d : LinearDelay δ) (a b : Site) : Checked δ := do
  let columns ← gap a.x b.x
  let rows ← gap a.y b.y
  let tiles ← Word.int32 (columns + rows)
  let layers ← gap a.layer b.layer
  .ok (d.base + d.perTile * DelayScalar.ofInt tiles + d.perLayer * DelayScalar.ofInt layers)

/-- **Delays linear in the distance** of the two ends of a connection. -/
def manhattan (d : LinearDelay δ) : DelayModel δ := fun nl net sink => do
  let (driver, target) ← nl.endsOf net sink
  d.between driver target

/-! ## Flat tables over all connections -/

/-- Running totals of `sizes`, starting from `start` and ending with the grand total. -/
def offsetsFrom (start : Nat) : List Nat → List Nat
  | [] => [start]
  | n :: rest => start :: offsetsFrom (start + n) rest

/-- **Where the connections of each net start.** There is one entry more than there are nets, and
net `n` owns the positions from entry `n` up to entry `n + 1`. -/
def connectionOffsets (nl : Netlist) : Array Nat :=
  (offsetsFrom 0 (nl.nets.toList.map (·.sinks.length))).toArray

/-- The number of connections of all nets. -/
def connectionCount (offsets : Array Nat) : Nat := offsets.back?.getD 0

/-- The position of a connection. -/
def connectionSlot (offsets : Array Nat) (net : NetId) (sink : Nat) : Checked Nat := do
  Word.nat64 ((← entry offsets net.toNat) + sink)

/-! ## Criticalities -/

/-- The criticality of every connection. -/
structure Criticality (δ : Type) where
  offsets : Array Nat
  values : Array δ
deriving Repr, Inhabited

namespace Criticality

/-- The same criticality for every connection. -/
def uniform (nl : Netlist) (value : δ) : Criticality δ :=
  let offsets := connectionOffsets nl
  ⟨offsets, Array.replicate (connectionCount offsets) value⟩

/-- The criticality of a connection. -/
def get (c : Criticality δ) (net : NetId) (sink : Nat) : Checked δ := do
  entry c.values (← connectionSlot c.offsets net sink)

/-- **Changes the criticality of a connection,** which has to exist. -/
def set (c : Criticality δ) (net : NetId) (sink : Nat) (value : δ) : Checked (Criticality δ) := do
  let slot ← connectionSlot c.offsets net sink
  require (slot < (← entry c.offsets (net.toNat + 1))) .outOfRange
  let _ ← entry c.values slot
  .ok { c with values := c.values.setIfInBounds slot value }

end Criticality

/-- What a timed evaluation needs. -/
structure TimingInputs (δ : Type) where
  delay : DelayModel δ
  criticality : NetId → Nat → Checked δ

end WireCost
