import WireCost.Diagnostic.Log
import WireCost.Engine.Audit
import WireCost.Engine.Evaluate
import WireCost.RunError
import WireCost.Stress.Proposal
import WireCost.Stress.Scenario

/-! # Random self-checks

A trial proposes random moves to an engine, accepts some of them, and from time to time compares the
engine with a recomputation.

* **`Trial`** — a trial under way; **`Trial.move`** makes one step, **`Trial.check`** compares.
* **`Trial.run`** — a number of steps, which ends early when a comparison fails.
* **`Trial.start`** — a trial of a random scenario. -/

namespace WireCost

/-- A comparison of the engine with a recomputation. -/
structure Checkpoint where
  /-- The number of moves proposed before. -/
  step : Nat
  totals : Totals Float
  passed : Bool

/-- What became of the proposed moves. -/
structure Tally where
  accepted : Nat
  rejected : Nat
  /-- Moves to where the block sits already. -/
  aborted : Nat
deriving DecidableEq, Repr, Inhabited

/-- What stays the same during a trial. -/
structure TrialPlan where
  device : Device
  settings : Settings
  timing : Option (TimingInputs Float32)

/-- A trial under way. -/
structure Trial where
  netlist : Netlist
  engine : Engine Float32 Float
  totals : Totals Float
  proposer : Proposer
  log : Log
  tally : Tally
  /-- The comparisons so far, the last one first. -/
  checkpoints : List Checkpoint

namespace Trial

variable {σ : Type} [Dice σ]

/-! ## Moves -/

/-- Accepts the pending move. -/
def accept (t : Trial) (m : Move) (outcome : Outcome Float) : Checked Trial := do
  let engine ← t.engine.commit
  .ok { t with
    engine
    totals := t.totals.apply outcome
    proposer := t.proposer.accept m
    tally := { t.tally with accepted := t.tally.accepted + 1 } }

/-- Discards the pending move. -/
def reject (t : Trial) (m : Move) : Checked Trial := do
  let engine ← t.engine.rollback
  let netlist ← t.netlist.revert m
  .ok { t with engine, netlist, tally := { t.tally with rejected := t.tally.rejected + 1 } }

/-- **One step:** proposes a random move, evaluates it, and accepts or discards it. -/
def move (t : Trial) (plan : TrialPlan) : Random σ Trial := do
  let m ← t.proposer.propose t.netlist plan.device
  if m.isEmpty then pure { t with tally := { t.tally with aborted := t.tally.aborted + 1 } }
  else
    let netlist ← t.netlist.apply m
    let (engine, outcome) ← t.engine.evaluate netlist m plan.timing
    let t := { t with netlist, engine }
    if ← chance plan.settings.stress.acceptance then t.accept m outcome else t.reject m

/-! ## Comparisons -/

/-- How far a total may be from that of another engine, relative to it. -/
def rebuildTolerance : Float := 1e-9

/-- The total of an engine that is built anew, or why it cannot be built. -/
def rebuiltTotal (t : Trial) (plan : TrialPlan) : Checked (Except DeviceDefect Float) := do
  match ← Engine.ofDevice t.netlist plan.device plan.settings.cost with
  | .error defect => .ok (.error defect)
  | .ok (engine, _) =>
    let engine : Engine Float32 Float := engine
    let (_, report, _) ← engine.rebuild t.netlist true
    .ok (.ok report.total)

/-- Whether a total agrees with that of another engine. -/
def agrees (tracked rebuilt : Float) : Bool :=
  !((rebuilt - tracked).abs > rebuildTolerance * (if rebuilt.abs < 1.0 then 1.0 else rebuilt.abs))

/-- The comparison with an engine that is built anew: nothing, or the diagnostic of a failure. -/
def compareRebuilt (t : Trial) (plan : TrialPlan) : Checked (Option Diagnostic) := do
  match ← t.rebuiltTotal plan with
  | .error defect =>
    let message := (RunError.unsupportedDevice defect.reason).message
    .ok (some (.error .mismatch s!"independent engine failed: {message}"))
  | .ok rebuilt =>
    if agrees t.totals.box rebuilt then .ok none
    else
      .ok (some ((Diagnostic.error .mismatch
        "committed bb_cost differs from an independent rebuild").noting
          s!"tracked {Decimal.plain t.totals.box}, rebuilt {Decimal.plain rebuilt}"))

/-- The diagnostic of a committed entry that a scan does not confirm. -/
def mismatchDiagnostic (m : Mismatch Float) : Diagnostic :=
  (Diagnostic.error .mismatch (m.message Decimal.plain)).advising
    "the incremental box update disagrees with a rebuild"

/-- Compares the running totals, then the boxes, then the total of another engine, until something
differs. Tells whether nothing did. -/
def compare (t : Trial) (plan : TrialPlan) : Checked (Trial × Bool) := do
  let totals ← t.engine.checkTotals t.netlist t.totals plan.timing
  let t := { t with
    engine := totals.engine
    totals := totals.totals
    log := t.log.emitAll (totals.findings.map Finding.diagnostic) }
  if totals.drift.isSome then .ok (t, false)
  else
    let (engine, mismatch) ← t.engine.verify t.netlist
    let t := { t with engine }
    match mismatch with
    | some m => .ok ({ t with log := t.log.emit (mismatchDiagnostic m) }, false)
    | none =>
      match ← t.compareRebuilt plan with
      | some d => .ok ({ t with log := t.log.emit d }, false)
      | none => .ok (t, true)

/-- **Compares the engine with recomputations** and records the comparison. -/
def check (t : Trial) (plan : TrialPlan) (step : Nat) : Checked Trial := do
  let (t, passed) ← t.compare plan
  .ok { t with checkpoints := ⟨step, t.totals, passed⟩ :: t.checkpoints }

/-- Whether the last comparison failed. -/
def hasFailed (t : Trial) : Bool := t.checkpoints.head?.any (!·.passed)

/-! ## Runs -/

/-- **Makes `remaining` more steps after `done` ones,** with a comparison at every multiple of the
interval and after the last step. A comparison that fails ends the run. -/
def run (plan : TrialPlan) (t : Trial) (done : Nat) : Nat → Random σ Trial
  | 0 => pure t
  | remaining + 1 => do
    let step := done + 1
    let t ← t.move plan
    if step % plan.settings.stress.interval = 0 ∨ remaining = 0 then
      let t ← t.check plan step
      if t.hasFailed then pure t else run plan t step remaining
    else run plan t step remaining

/-- The timing inputs of a trial: a linear delay and random criticalities. -/
def timingInputs (nl : Netlist) : Random σ (TimingInputs Float32) := do
  let criticality ← randomCriticality nl
  pure ⟨manhattan .standard, criticality.get⟩

/-- **A trial of a netlist before its first step,** or why the device cannot be used. -/
def start (nl : Netlist) (device : Device) (settings : Settings) :
    Random σ (Except DeviceDefect (TrialPlan × Trial)) := do
  match ← Engine.ofDevice nl device settings.cost with
  | .error defect => pure (.error defect)
  | .ok (engine, findings) =>
    let timing ← if settings.timing.enabled then some <$> timingInputs nl else pure none
    let (engine, cost) ←
      match timing with
      | some inputs => engine.recomputeTiming nl inputs
      | none => pure (engine, 0.0)
    let trial : Trial := {
      netlist := nl
      engine
      totals := ⟨engine.boxCost, cost⟩
      proposer := .ofNetlist nl settings.stress.range
      log := Log.empty.emitAll (findings.map Finding.diagnostic)
      tally := ⟨0, 0, 0⟩
      checkpoints := [] }
    pure (.ok (⟨device, settings, timing⟩, trial))

end Trial

end WireCost
