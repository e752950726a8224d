import WireCost.Device
import WireCost.Netlist.Build
import WireCost.Stress.Dice
import WireCost.Timing.Delay

/-! # Random scenarios

* **`Scenario`** — the size of a random netlist and of the device that it is placed on.
* **`Scenario.netlist`** — such a netlist: its blocks on distinct sites, its nets between random
  blocks.
* **`randomCriticality`** — a random criticality for every connection. -/

namespace WireCost

/-- The size of a random netlist and its device. -/
structure Scenario where
  nets : UInt64
  blocks : UInt64
  layers : UInt64
  /-- The number of rows and of columns. -/
  grid : UInt64
  /-- The tracks of every channel. -/
  tracks : UInt32
  /-- The largest number of sinks of a net; at least one sink is always allowed. -/
  maxFanout : UInt64
deriving DecidableEq, Repr, Inhabited

/-- A number of blocks that do not find a site each, or no blocks at all. -/
structure Crowding where
  blocks : Nat
  sites : Nat
deriving DecidableEq, Repr

/-- What is said about blocks that cannot be placed. -/
def Crowding.message (c : Crowding) : String :=
  s!"cannot place {c.blocks} blocks on {c.sites} sites"

/-- The number of lines of a side whose size is cut down to a signed word. -/
def lineCount (size : UInt64) : Nat := (Word.cut32 size.toNat).toNat

/-- Brings random locations to the front: `count` places from `first` on. -/
def shuffle {σ : Type} [Dice σ] (sites : Array Location) (first : Nat) :
    Nat → Random σ (Array Location)
  | 0 => pure sites
  | count + 1 => do
    let other ← draw first (sites.size - 1 : Int)
    shuffle (sites.swapIfInBounds first other.toNat) (first + 1) count

namespace Scenario

/-- The device of a scenario. -/
def device (s : Scenario) : Checked Device := Device.uniform s.grid s.grid s.layers s.tracks

/-- The number of locations of the device. -/
def siteCount (s : Scenario) : Nat := lineCount s.layers * (lineCount s.grid * lineCount s.grid)

/-- All locations of the device, one on each tile of each layer. -/
def sites (s : Scenario) : List Location :=
  (List.range (lineCount s.layers)).flatMap fun layer =>
    (List.range (lineCount s.grid)).flatMap fun y =>
      (List.range (lineCount s.grid)).map fun x => ⟨.ofNat x, .ofNat y, 0, .ofNat layer⟩

/-- As many locations are listed as are counted. -/
theorem length_sites (s : Scenario) : s.sites.length = s.siteCount := by
  simp [sites, siteCount, List.length_flatMap, List.map_const']

/-- Refuses a device whose list of sites, at sixteen bytes a site, does not fit an address space. -/
def requireRoom (s : Scenario) : Checked Unit := do
  let tiles ← Word.nat64 (s.grid.toNat * s.grid.toNat)
  let sites ← Word.nat64 (tiles * s.layers.toNat)
  Word.requireRoom 16 sites

variable {σ : Type} [Dice σ]

/-- A random block of a scenario. -/
def drawBlock (s : Scenario) : Random σ BlockId := do
  let n ← draw 0 ((s.blocks.toNat % Word.size32 : Nat) - 1)
  pure (.ofNat n.toNat)

/-- Adds random sinks to a net. -/
def addSinks (s : Scenario) (net : NetId) (nl : Netlist) : Nat → Random σ Netlist
  | 0 => pure nl
  | count + 1 => do
    let (nl, _) ← nl.connectSink net (← s.drawBlock) .zero
    s.addSinks net nl count

/-- Adds a net with a random driver and a random number of random sinks. -/
def addNet (s : Scenario) (nl : Netlist) (number : Nat) : Random σ Netlist := do
  let (nl, net) := nl.addNet s!"net{number}"
  let (nl, _) ← nl.connectDriver net (← s.drawBlock) .zero
  let sinks ← draw 1 (max s.maxFanout.toNat 1 : Nat)
  s.addSinks net nl sinks.toNat

/-- Adds one block on each of some sites. -/
def addBlocks (sites : List Location) : Netlist :=
  sites.zipIdx.foldl (fun nl (site, i) => (nl.addBlock s!"blk{i}" site).1) .empty

/-- **A random netlist of the size of the scenario,** unless its blocks do not find a site each. -/
def netlist (s : Scenario) : Random σ (Except Crowding Netlist) := do
  s.requireRoom
  let count := s.blocks.toNat
  if count = 0 ∨ s.siteCount < count then pure (.error ⟨count, s.siteCount⟩)
  else
    let sites ← shuffle s.sites.toArray 0 count
    let nl ← (List.range s.nets.toNat).foldlM s.addNet (addBlocks (sites.toList.take count))
    pure (.ok nl)

end Scenario

/-- Sets random criticalities for the connections of one net. -/
def randomizeNet {σ : Type} [Dice σ] (c : Criticality Float32) (net : Net) :
    Random σ (Criticality Float32) :=
  (List.range net.sinks.length).foldlM (fun c sink => do
    c.set net.id sink (← fraction).toFloat32) c

/-- **A random criticality for every connection.** -/
def randomCriticality {σ : Type} [Dice σ] (nl : Netlist) : Random σ (Criticality Float32) :=
  nl.nets.toList.foldlM randomizeNet (.uniform nl (Float.ofInt 0).toFloat32)

end WireCost
