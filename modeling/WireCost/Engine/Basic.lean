import WireCost.Geometry.Table
import WireCost.Timing.Table

/-! # The cost engine

The engine keeps the cost of a placement up to date while blocks move. A move is evaluated on
proposed copies; then it is either committed or rolled back.

* **`Engine`** — the geometry, the cost and the timing of every net, as committed and as proposed.
* **`NetState`** — what the engine keeps about one net beside its geometry.
* **`Engine.boxCost`** — the total of the committed net costs. -/

namespace WireCost

/-- How the proposed geometry of a net came about in the pending move. -/
inductive NetUpdate where
  /-- The pending move has not touched the net. -/
  | untouched
  /-- Its geometry was changed pin by pin. -/
  | adjusted
  /-- Its geometry was scanned anew and reflects the whole move. -/
  | rescanned
deriving DecidableEq, Repr, Inhabited

/-- The cost of one net and what the pending move does to it. -/
structure NetState (α : Type) where
  cost : α
  /-- The cost after the pending move, for nets that it touches. -/
  proposed : Option α
  update : NetUpdate
  /-- Whether the net is left out of all costs. -/
  ignored : Bool
deriving Repr, Inhabited

/-- The state of a net after the pending move is accepted. -/
def NetState.accept {α : Type} (s : NetState α) : NetState α :=
  { s with cost := s.proposed.getD s.cost, proposed := none, update := .untouched }

/-- The state of a net after the pending move is discarded. -/
def NetState.discard {α : Type} (s : NetState α) : NetState α :=
  { s with proposed := none, update := .untouched }

/-- What an evaluated move changes. -/
structure Outcome (α : Type) where
  boxDelta : α
  timingDelta : α
  /-- How many nets the move touches. -/
  nets : Nat
  /-- How many connections change their delay. -/
  connections : Nat
deriving Repr, Inhabited

/-- How the engine works. -/
structure EngineOptions (α : Type) where
  /-- Nets with fewer sinks than this are always scanned anew. -/
  smallNet : Nat
  /-- The relative distance from a recomputation at which a tracked total has drifted. -/
  tolerance : α
deriving Repr, Inhabited

/-- The state of the cost engine. -/
structure Engine (δ α : Type) where
  interior : Interior
  factors : ChannelFactors α
  options : EngineOptions α
  geometry : GeometryTable
  nets : Array (NetState α)
  /-- The nets that the last evaluated move touches, in the order of their first touch. -/
  affected : List NetId
  connections : ConnectionTable δ α
  /-- Whether a move has been evaluated and neither committed nor rolled back. -/
  pending : Bool
deriving Repr, Inhabited

namespace Engine

variable {δ α : Type}

/-- The state of a net. -/
def stateOf (e : Engine δ α) (net : NetId) : Checked (NetState α) := entry e.nets net.toNat

/-- Changes the state of a net. -/
def updateNet (e : Engine δ α) (net : NetId) (f : NetState α → NetState α) : Engine δ α :=
  { e with nets := e.nets.modify net.toNat f }

/-- The ids of all nets. -/
def netIds (e : Engine δ α) : List NetId := (List.range e.nets.size).map NetId.ofNat

/-- The box form in use. -/
def form (e : Engine δ α) : BoxForm := e.geometry.form

/-- **The total of the committed net costs.** -/
def boxCost [CostScalar α] (e : Engine δ α) : α := sum (e.nets.toList.map (·.cost))

end Engine

end WireCost
