import WireCost.Timing.Delay

/-! # Committed and proposed connection timings

* **`ConnectionTable`** — the delay and the cost of every connection, as committed and as proposed,
  with the connections that the pending move touches.
* **`ConnectionTable.recompute`** — times every connection again.
* **`ConnectionTable.propose`** — times one connection for the pending move.
* **`ConnectionTable.commit`, `ConnectionTable.rollback`** — end the pending move. -/

namespace WireCost

/-- The delay of a connection and what it costs. -/
structure Connection (δ α : Type) where
  delay : δ
  cost : α
deriving Repr, Inhabited

/-- The timings of all connections. -/
structure ConnectionTable (δ α : Type) where
  offsets : Array Nat
  committed : Array (Connection δ α)
  proposed : Array (Connection δ α)
  /-- The positions of the connections that the pending move changes. -/
  touched : Array Nat
deriving Repr, Inhabited

namespace ConnectionTable

variable {δ α : Type} [CostScalar α] [DelayScalar δ α]

/-- The timings of a netlist whose connections have not been timed yet. -/
def blank (nl : Netlist) : ConnectionTable δ α :=
  let offsets := connectionOffsets nl
  let untimed := Array.replicate (connectionCount offsets) ⟨DelayScalar.ofInt 0, zero⟩
  ⟨offsets, untimed, untimed, #[]⟩

/-- The timing of a connection at the current placement. -/
def timing (inputs : TimingInputs δ) (net : NetId) (sink : Nat) (delay : δ) :
    Checked (Connection δ α) := do
  let weight ← inputs.criticality net sink
  .ok ⟨delay, DelayScalar.toCost weight * DelayScalar.toCost delay⟩

/-- Times one connection and adds its cost to a total. -/
def recomputeOne (nl : Netlist) (inputs : TimingInputs δ) (net : NetId)
    (state : ConnectionTable δ α × α) (sink : Nat) : Checked (ConnectionTable δ α × α) := do
  let (t, total) := state
  let slot ← connectionSlot t.offsets net sink
  let delay ← inputs.delay nl net sink
  let timed ← timing inputs net sink delay
  let _ ← entry t.committed slot
  .ok ({ t with committed := t.committed.setIfInBounds slot timed }, total + timed.cost)

/-- Times the connections of one net, unless it is ignored. -/
def recomputeNet (nl : Netlist) (inputs : TimingInputs δ)
    (state : ConnectionTable δ α × α) (net : NetId) : Checked (ConnectionTable δ α × α) := do
  let n ← nl.net net
  if n.ignored then .ok state
  else (List.range n.sinks.length).foldlM (recomputeOne nl inputs net) state

/-- **Times every connection of every net that is not ignored,** and adds up the costs. -/
def recompute (t : ConnectionTable δ α) (nl : Netlist) (inputs : TimingInputs δ) :
    Checked (ConnectionTable δ α × α) :=
  ((List.range nl.nets.size).map NetId.ofNat).foldlM (recomputeNet nl inputs) (t, zero)

/-- **Times one connection for the pending move** and tells the change of its cost. A connection
whose delay stays the same is not touched. -/
def propose (t : ConnectionTable δ α) (nl : Netlist) (inputs : TimingInputs δ) (net : NetId)
    (sink : Nat) : Checked (ConnectionTable δ α × α) := do
  let slot ← connectionSlot t.offsets net sink
  let delay ← inputs.delay nl net sink
  let old ← entry t.committed slot
  if delay == old.delay then .ok (t, zero)
  else
    let timed ← timing inputs net sink delay
    .ok ({ t with
      proposed := t.proposed.setIfInBounds slot timed
      touched := t.touched.push slot }, timed.cost - old.cost)

/-- Makes the proposed timing at one position the committed one. -/
def commitSlot (proposed committed : Array (Connection δ α)) (slot : Nat) :
    Array (Connection δ α) :=
  match proposed[slot]? with
  | some timed => committed.setIfInBounds slot timed
  | none => committed

/-- **Accepts the pending move:** the proposed timings of the touched connections take effect. -/
def commit (t : ConnectionTable δ α) : ConnectionTable δ α :=
  { t with
    committed := t.touched.foldl (commitSlot t.proposed) t.committed
    touched := #[] }

/-- **Discards the pending move.** -/
def rollback (t : ConnectionTable δ α) : ConnectionTable δ α := { t with touched := #[] }

/-- The committed delay of a connection. -/
def delayOf (t : ConnectionTable δ α) (net : NetId) (sink : Nat) : Checked δ := do
  let slot ← connectionSlot t.offsets net sink
  .ok (← entry t.committed slot).delay

end ConnectionTable

end WireCost
