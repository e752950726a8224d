import WireCost.Engine.Basic
import WireCost.Move

/-! # Evaluating, committing and rolling back moves

* **`Engine.evaluate`** — visits every pin of every moved block, keeps the proposed geometry of its
  net in step, times the connections that change, and then costs each touched net once.
* **`Engine.commit`**, **`Engine.rollback`** — end the pending move. -/

namespace WireCost.Engine

variable {δ α : Type} [CostScalar α] [DelayScalar δ α]

/-! ## One pin -/

/-- Lists a net as touched by the pending move, on its first visit. -/
def touch (e : Engine δ α) (net : NetId) (state : NetState α) : Engine δ α :=
  if state.proposed.isSome then e
  else
    { e.updateNet net fun s => { s with proposed := some zero } with
      affected := e.affected ++ [net] }

/-- Scans a net into its proposed geometry. -/
def rescan (e : Engine δ α) (nl : Netlist) (net : NetId) : Checked (Engine δ α) := do
  let geometry ← e.geometry.propose nl e.interior net
  .ok ({ e with geometry }.updateNet net fun s => { s with update := .rescanned })

/-- The interior sites between which a pin of a relocated block moves. -/
def shiftOf (e : Engine δ α) (r : Relocation) (pin : Pin) : Checked PinShift := do
  let old ← e.interior.clip (← r.source.siteAt pin.offset)
  let new ← e.interior.clip (← r.target.siteAt pin.offset)
  .ok ⟨old, new, pin.direction == .driver⟩

/-- **Keeps the proposed geometry of a net in step with one moved pin.** A net that was scanned
already reflects the whole move; a small net is scanned at once, another one only if the pin's move
cannot be followed. -/
def follow (e : Engine δ α) (nl : Netlist) (net : NetId) (r : Relocation) (pin : Pin) :
    Checked (Engine δ α) := do
  let state ← e.stateOf net
  if state.update = .rescanned then .ok e
  else if (← nl.net net).sinks.length < e.options.smallNet then e.rescan nl net
  else
    let shift ← e.shiftOf r pin
    let (geometry, followed) ← e.geometry.shift net (state.update = .untouched) shift
    let e := { e with geometry }
    if followed then .ok (e.updateNet net fun s => { s with update := .adjusted })
    else e.rescan nl net

/-- Times one connection for the pending move and adds the change of its cost to a total. -/
def retimeOne (nl : Netlist) (inputs : TimingInputs δ) (net : NetId) (state : Engine δ α × α)
    (sink : Nat) : Checked (Engine δ α × α) := do
  let (e, delta) := state
  let (connections, change) ← e.connections.propose nl inputs net sink
  .ok ({ e with connections }, delta + change)

/-- **Times the connections that a moved pin changes:** all of its net if it is the driver, and its
own if it is a sink, unless the driver's block moves too and its visit covers all sinks. -/
def retime (e : Engine δ α) (nl : Netlist) (inputs : TimingInputs δ) (m : Move) (net : NetId)
    (pin : Pin) : Checked (Engine δ α × α) := do
  if pin.direction = .driver then
    (List.range (← nl.net net).sinks.length).foldlM (retimeOne nl inputs net) (e, zero)
  else
    let driver ← nl.pin (← nl.driverOf net)
    if m.contains driver.block then .ok (e, zero)
    else
      match pin.sinkIndex with
      | none => .ok (e, zero)
      | some sink =>
        let (connections, change) ← e.connections.propose nl inputs net sink.toNat
        .ok ({ e with connections }, change)

/-- **Visits one pin of a moved block.** Open pins and pins of ignored nets change nothing. -/
def visit (nl : Netlist) (m : Move) (timing : Option (TimingInputs δ)) (r : Relocation)
    (state : Engine δ α × α) (id : PinId) : Checked (Engine δ α × α) := do
  let (e, delta) := state
  let pin ← nl.pin id
  match pin.net with
  | none => .ok (e, delta)
  | some net =>
    let old ← e.stateOf net
    if old.ignored then .ok (e, delta)
    else
      let e ← (e.touch net old).follow nl net r pin
      match timing with
      | none => .ok (e, delta)
      | some inputs =>
        let (e, change) ← e.retime nl inputs m net pin
        .ok (e, delta + change)

/-- Visits all pins of a moved block, which has to sit at its new location. -/
def visitBlock (nl : Netlist) (m : Move) (timing : Option (TimingInputs δ))
    (state : Engine δ α × α) (r : Relocation) : Checked (Engine δ α × α) := do
  let block ← nl.block r.block
  require (block.location = r.target) (.blockNotMoved r.block.toNat)
  block.pins.foldlM (visit nl m timing r) state

/-! ## Costs of the touched nets -/

/-- Checks that a proposed geometry is one that pins inside the interior can have. -/
def checkProposed (e : Engine δ α) (net : NetId) (g : Geometry) : Checked Unit := do
  g.boxes.forM fun box => do
    require (e.interior.containsBox box) (.boxOutsideInterior net.toNat box)
    require (¬ box.hasBareEdge) (.boxWithBareEdge net.toNat box)
  require (∀ n ∈ g.sinks, 0 ≤ n) (.negativeSinkCount net.toNat)

/-- Costs one touched net and adds the change to a total. -/
def recost (state : Engine δ α × α) (net : NetId) : Checked (Engine δ α × α) := do
  let (e, delta) := state
  let g ← e.geometry.proposedOf net
  let cost ← g.cost e.form e.factors
  let old ← e.stateOf net
  e.checkProposed net g
  .ok (e.updateNet net fun s => { s with proposed := some cost }, delta + (cost - old.cost))

/-! ## Moves -/

/-- **Evaluates a move** whose blocks already sit at their new locations. No move may be pending;
afterwards this one is. Connections are timed only if `timing` is given. -/
def evaluate (e : Engine δ α) (nl : Netlist) (m : Move) (timing : Option (TimingInputs δ)) :
    Checked (Engine δ α × Outcome α) := do
  require (¬ e.pending) .evaluateWhilePending
  let start := { e with pending := true, affected := [] }
  let (e, timingDelta) ← m.relocations.foldlM (visitBlock nl m timing) (start, zero)
  let (e, boxDelta) ← e.affected.foldlM recost (e, zero)
  .ok (e, ⟨boxDelta, timingDelta, e.affected.length, e.connections.touched.size⟩)

/-- Accepts the pending move for one net. -/
def commitNet (e : Engine δ α) (net : NetId) : Checked (Engine δ α) := do
  let geometry ← e.geometry.commit net
  .ok ({ e with geometry }.updateNet net NetState.accept)

/-- **Accepts the pending move.** -/
def commit (e : Engine δ α) : Checked (Engine δ α) := do
  require e.pending .commitWithoutMove
  let e ← e.affected.foldlM commitNet e
  .ok { e with connections := e.connections.commit, pending := false }

/-- **Discards the pending move.** The committed state stays as it is. -/
def rollback (e : Engine δ α) : Checked (Engine δ α) := do
  require e.pending .rollbackWithoutMove
  let e := e.affected.foldl (fun e net => e.updateNet net NetState.discard) e
  .ok { e with connections := e.connections.rollback, pending := false }

end WireCost.Engine
