import WireCost.Engine.Basic
import WireCost.Engine.Finding
import WireCost.Settings.Basic

/-! # Building the engine and recomputing its totals

* **`Engine.ofDevice`** — an engine for a netlist on a device, every net scanned and costed.
* **`Engine.rebuild`** — scans and costs every net again, from the current placement.
* **`Engine.recomputeBoxCost`** — adds up the costs of the committed boxes, without scanning.
* **`Engine.recomputeTiming`** — times every connection again. -/

namespace WireCost

/-- The result of costing all nets. -/
structure CostReport (α : Type) where
  total : α
  /-- The wirelength estimate, if it was asked for. -/
  wirelength : Option α
deriving Repr, Inhabited

namespace Engine

variable {δ α : Type} [CostScalar α] [DelayScalar δ α]

/-- The totals of a rebuild under way. -/
structure RebuildTotals (α : Type) where
  cost : α
  wirelength : α

/-- Scans and costs one net; an ignored net costs nothing. -/
def rebuildNet (nl : Netlist) (withLength : Bool) (state : Engine δ α × RebuildTotals α)
    (net : NetId) : Checked (Engine δ α × RebuildTotals α) := do
  let (e, totals) := state
  let ignored := (← nl.net net).ignored
  if ignored then .ok (e.updateNet net fun s => { s with ignored := true, cost := zero }, totals)
  else
    let geometry ← e.geometry.load nl e.interior net
    let cost ← geometry.committedCost e.factors net
    let wirelength ←
      if withLength then (geometry.committedLength net).map (totals.wirelength + ·)
      else .ok totals.wirelength
    .ok ({ e with geometry }.updateNet net fun s => { s with ignored := false, cost },
      ⟨totals.cost + cost, wirelength⟩)

/-- **Scans and costs every net** at the current placement, taking over which nets are ignored. No
move may be pending. The wirelength is estimated, and found worth telling, if `withLength` is
set. -/
def rebuild (e : Engine δ α) (nl : Netlist) (withLength : Bool) :
    Checked (Engine δ α × CostReport α × List (Finding α)) := do
  require (¬ e.pending) .rebuildWhilePending
  require (nl.nets.size = e.nets.size) .netlistResized
  let (e, totals) ← e.netIds.foldlM (rebuildNet nl withLength) (e, ⟨zero, zero⟩)
  if withLength then
    .ok (e, ⟨totals.cost, some totals.wirelength⟩, [.wirelength totals.wirelength])
  else .ok (e, ⟨totals.cost, none⟩, [])

/-- An engine with given factors that has not looked at any net yet. -/
def blank (interior : Interior) (factors : ChannelFactors α) (form : BoxForm)
    (options : EngineOptions α) (nl : Netlist) : Checked (Engine δ α) := do
  .ok {
    interior
    factors
    options
    geometry := ← GeometryTable.blank form nl.nets.size interior.layers
    nets := Array.replicate nl.nets.size ⟨zero, none, .untouched, false⟩
    affected := []
    connections := .blank nl
    pending := false }

/-- **An engine with given factors,** every net scanned and costed. -/
def ofFactors (interior : Interior) (factors : ChannelFactors α) (form : BoxForm)
    (options : EngineOptions α) (nl : Netlist) : Checked (Engine δ α) := do
  let (e, _, _) ← (← blank interior factors form options nl).rebuild nl false
  .ok e

/-- The box form for a number of layers: one box is enough for a single layer. -/
def formFor (choice : FormChoice) (layers : Nat) : BoxForm :=
  match choice with
  | .cube => .cube
  | .perLayer => .perLayer
  | .auto => if layers = 1 then .cube else .perLayer

/-- **An engine for a netlist on a device,** with what was noticed on the way, or why the device
cannot be used. -/
def ofDevice (nl : Netlist) (device : Device) (settings : CostSettings α) :
    Checked (Except DeviceDefect (Engine δ α × List (Finding α))) := do
  match ← Interior.ofDevice device with
  | .error defect => .ok (.error defect)
  | .ok interior =>
    let (factors, bare) ← ChannelFactors.ofDevice device settings.exponent
    let form := formFor settings.form interior.layers
    let findings := bare.map .bareSpan ++ [.boxForm form nl.nets.size interior.layers]
    let e ← ofFactors interior factors form ⟨settings.smallNet, settings.tolerance⟩ nl
    .ok (.ok (e, findings))

/-- The cost of the committed geometry of a net. -/
def committedCost (e : Engine δ α) (net : NetId) : Checked α :=
  e.geometry.committedCost e.factors net

/-- The nets that are not ignored. -/
def countedNets (e : Engine δ α) : List NetId :=
  e.netIds.filter fun net => !(e.nets[net.toNat]?.any (·.ignored))

/-- **The total cost of the committed boxes,** added up again without looking at pins. -/
def recomputeBoxCost (e : Engine δ α) : Checked α := do
  .ok (sum (← e.countedNets.mapM e.committedCost))

/-- **Times every connection again** and adds up what they cost. No move may be pending. -/
def recomputeTiming (e : Engine δ α) (nl : Netlist) (inputs : TimingInputs δ) :
    Checked (Engine δ α × α) := do
  require (¬ e.pending) .retimeWhilePending
  let (connections, total) ← e.connections.recompute nl inputs
  .ok ({ e with connections }, total)

end Engine

end WireCost
