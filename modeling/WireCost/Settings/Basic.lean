/-! # Settings

* **`Settings`** — everything that a configuration file can set, with the values in use otherwise.
* **`CostSettings`** — what shapes the cost of boxes and its bookkeeping.
* **`TimingSettings`**, **`StressSettings`** — timing, and the random self-check. -/

namespace WireCost

/-- Which box form to use. -/
inductive FormChoice where
  /-- One box on a single layer, one box a layer otherwise. -/
  | auto
  | cube
  | perLayer
deriving DecidableEq, Repr, Inhabited

/-- What shapes the cost of boxes and its bookkeeping. -/
structure CostSettings (α : Type) where
  /-- The exponent of the inverse average channel capacity. -/
  exponent : α
  /-- Nets with fewer sinks than this are always scanned anew. -/
  smallNet : Nat
  form : FormChoice
  /-- The relative tolerance of the drift check. -/
  tolerance : α
deriving Repr, Inhabited

/-- Whether and how delays enter the cost. -/
structure TimingSettings where
  enabled : Bool
  /-- The share of the timing cost in the combined cost. -/
  tradeoff : Float
deriving Repr, Inhabited

/-- How the random self-check runs. -/
structure StressSettings where
  /-- The number of proposed moves. -/
  moves : Nat
  /-- The number of moves between two checks. -/
  interval : Nat
  /-- The probability that a move is accepted. -/
  acceptance : Float
  /-- The largest displacement of a move on each axis. -/
  range : UInt32
  seed : UInt64
deriving Repr, Inhabited

/-- Everything that can be set. -/
structure Settings where
  cost : CostSettings Float
  timing : TimingSettings
  stress : StressSettings
deriving Repr, Inhabited

/-- The cost settings in use unless others are given. -/
def CostSettings.standard : CostSettings Float := ⟨1.0, 4, .auto, 0.01⟩

/-- The timing settings in use unless others are given. -/
def TimingSettings.standard : TimingSettings := ⟨false, 0.5⟩

/-- The stress settings in use unless others are given. -/
def StressSettings.standard : StressSettings := ⟨10000, 1000, 0.5, 8, 1⟩

/-- The settings in use unless others are given. -/
def Settings.standard : Settings := ⟨.standard, .standard, .standard⟩

end WireCost
