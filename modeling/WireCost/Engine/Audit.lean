import WireCost.Engine.Rebuild

/-! # Checking the engine against a recomputation

The search loop adds up the changes of the moves it accepts. From time to time the sums are compared
with a recomputation, and the boxes with a scan of all pins.

* **`Totals`** — the running totals of the search loop.
* **`Engine.checkTotals`** — compares both totals with a recomputation and replaces them.
* **`Engine.verify`** — compares every committed geometry and cost with a scan. -/

namespace WireCost

/-- The running totals of the search loop. -/
structure Totals (α : Type) where
  box : α
  timing : α
deriving Repr, Inhabited

namespace Totals

variable {α : Type} [CostScalar α]

/-- The totals after an accepted move. -/
def apply (t : Totals α) (o : Outcome α) : Totals α :=
  ⟨t.box + o.boxDelta, t.timing + o.timingDelta⟩

/-- Both totals as one cost, `tradeoff` being the share of timing. -/
def combined (t : Totals α) (tradeoff : α) : α :=
  (CostScalar.ofInt 1 - tradeoff) * t.box + tradeoff * t.timing

end Totals

/-- A committed entry that a scan does not confirm. -/
inductive Mismatch (α : Type) where
  /-- A move is pending, so there is nothing to compare. -/
  | moveIsPending
  /-- The committed geometry of a net differs from a scan. -/
  | geometry (net : NetId) (committed scanned : Geometry)
  /-- The committed cost of a net differs from the cost of its boxes. -/
  | cost (net : NetId) (committed recomputed : α)
deriving Repr

/-- What is said about a mismatch. -/
def Mismatch.message {α : Type} (show_ : α → String) : Mismatch α → String
  | .moveIsPending => "verification requested during a pending move"
  | .geometry net committed scanned =>
    s!"net {net.index}: committed boxes {committed.boxesText} (sinks {committed.sinksText}) " ++
      s!"but pins give {scanned.boxesText} (sinks {scanned.sinksText})"
  | .cost net committed recomputed =>
    s!"net {net.index}: committed cost {show_ committed} but boxes give {show_ recomputed}"

namespace Engine

variable {δ α : Type} [CostScalar α] [DelayScalar δ α]

/-! ## Drift -/

/-- Whether a tracked total is close enough to its recomputation. -/
def isClose (e : Engine δ α) (tracked recomputed : α) : Bool :=
  CostScalar.magnitude (recomputed - tracked) ≤ tracked * e.options.tolerance

/-- The outcome of a check of the running totals. -/
structure TotalsCheck (δ α : Type) where
  engine : Engine δ α
  totals : Totals α
  /-- The first total that has drifted, if any. -/
  drift : Option (Drift α)
  findings : List (Finding α)

/-- The outcome of finding a drift. -/
def drifted (e : Engine δ α) (totals : Totals α) (drift : Drift α) : TotalsCheck δ α :=
  ⟨e, totals, some drift, [.drift drift e.options.tolerance]⟩

/-- **Checks the running totals,** the box cost before the timing cost, and replaces each one that
is close enough by its recomputation, which removes the rounding that has built up. -/
def checkTotals (e : Engine δ α) (nl : Netlist) (totals : Totals α)
    (timing : Option (TimingInputs δ)) : Checked (TotalsCheck δ α) := do
  let box ← e.recomputeBoxCost
  if ¬ e.isClose totals.box box then .ok (e.drifted totals ⟨.box, totals.box, box⟩)
  else
    let totals := { totals with box }
    match timing with
    | none => .ok ⟨e, totals, none, []⟩
    | some inputs =>
      let (e, timing) ← e.recomputeTiming nl inputs
      if ¬ e.isClose totals.timing timing then
        .ok (e.drifted totals ⟨.timing, totals.timing, timing⟩)
      else .ok ⟨e, { totals with timing }, none, []⟩

/-! ## Verification -/

/-- Compares one net with a scan, which is left in its proposed geometry. -/
def verifyNet (e : Engine δ α) (nl : Netlist) (net : NetId) :
    Checked (Engine δ α × Option (Mismatch α)) := do
  let geometry ← e.geometry.propose nl e.interior net
  let e := { e with geometry }
  let committed ← geometry.committedOf net
  let scanned ← geometry.proposedOf net
  if committed ≠ scanned then .ok (e, some (.geometry net committed scanned))
  else
    let cost ← e.committedCost net
    let state ← e.stateOf net
    if cost == state.cost then .ok (e, none) else .ok (e, some (.cost net state.cost cost))

/-- Compares nets with a scan until one differs. -/
def verifyNets (e : Engine δ α) (nl : Netlist) :
    List NetId → Checked (Engine δ α × Option (Mismatch α))
  | [] => .ok (e, none)
  | net :: rest => do
    match ← e.verifyNet nl net with
    | (e, some mismatch) => .ok (e, some mismatch)
    | (e, none) => e.verifyNets nl rest

/-- **Compares every net with a scan** and tells the first one that differs. The scans use the
proposed geometries, so no move may be pending. -/
def verify (e : Engine δ α) (nl : Netlist) : Checked (Engine δ α × Option (Mismatch α)) :=
  if e.pending then .ok (e, some .moveIsPending) else e.verifyNets nl e.countedNets

end Engine

end WireCost
