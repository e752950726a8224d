import WireCost.Diagnostic.Document
import WireCost.Json.Writer
import WireCost.Stress.Trial

/-! # The outcome of a self-check

* **`Scenario.simulate`** — runs a trial of a random scenario.
* **`StressSummary`** — what is reported about it, as text or as JSON. -/

namespace WireCost

/-- Why a self-check cannot start. -/
inductive StressError where
  /-- The blocks do not find a site each. -/
  | crowded (crowding : Crowding)
  /-- The device cannot hold a placement. -/
  | unsupported (defect : DeviceDefect)
deriving DecidableEq, Repr

/-- What is said about a self-check that cannot start. -/
def StressError.message : StressError → String
  | .crowded crowding => crowding.message
  | .unsupported defect => (RunError.unsupportedDevice defect.reason).message

/-- What is reported about a self-check. -/
structure StressSummary where
  form : BoxForm
  /-- The number of moves asked for. -/
  moves : Nat
  tally : Tally
  /-- The comparisons, in order. -/
  checkpoints : List Checkpoint
  totals : Totals Float
  /-- Both totals as one cost, if delays enter the cost. -/
  combined : Option Float
  diagnostics : List Diagnostic

/-- The summary of a trial. -/
def Trial.summary (t : Trial) (settings : Settings) : StressSummary where
  form := t.engine.form
  moves := settings.stress.moves
  tally := t.tally
  checkpoints := t.checkpoints.reverse
  totals := t.totals
  combined :=
    if settings.timing.enabled then some (t.totals.combined settings.timing.tradeoff) else none
  diagnostics := t.log.held

/-- **Runs a trial of a random scenario.** -/
def Scenario.simulate {σ : Type} [Dice σ] (s : Scenario) (settings : Settings) :
    Random σ (Except StressError StressSummary) := do
  match ← s.netlist with
  | .error crowding => pure (.error (.crowded crowding))
  | .ok nl =>
    let device ← s.device
    match ← Trial.start nl device settings with
    | .error defect => pure (.error (.unsupported defect))
    | .ok (plan, trial) =>
      let trial ← trial.run plan 0 settings.stress.moves
      pure (.ok (trial.summary settings))

/-- The line about a comparison. -/
def Checkpoint.toText (c : Checkpoint) : String :=
  s!"   step {c.step}: bb_cost {Decimal.fixed 6 c.totals.box}, " ++
    s!"timing_cost {Decimal.fixed 6 c.totals.timing}" ++
    (if c.passed then "" else " (FAILED)") ++ "\n"

namespace StressSummary

/-- The errors that were noticed. -/
def failures (s : StressSummary) : List Diagnostic := s.diagnostics.filter (·.severity.isError)

/-- The line that ends a run. -/
def closing (s : StressSummary) : String :=
  s!"    Finished {s.moves} moves ({s.tally.accepted} accepted, {s.tally.rejected} rejected, " ++
    s!"{s.tally.aborted} aborted), {s.checkpoints.length} checkpoints\n"

/-- A summary as text. -/
def toText (s : StressSummary) : String :=
  s!"form: {s.form.label}\nbb cost: {Decimal.fixed 6 s.totals.box}\n" ++
    match s.combined with
    | some combined =>
      s!"timing cost: {Decimal.fixed 6 s.totals.timing}\n" ++
        s!"combined cost: {Decimal.fixed 6 combined}\n"
    | none => ""

/-- A summary as a JSON value. -/
def toJson (s : StressSummary) : Json :=
  .object
    [("bounding_box", .string s.form.label), ("moves", .nat s.moves),
      ("accepted", .nat s.tally.accepted), ("rejected", .nat s.tally.rejected),
      ("aborted", .nat s.tally.aborted), ("checkpoints", .nat s.checkpoints.length),
      ("final_costs",
        .object [("bb_cost", .float s.totals.box), ("timing_cost", .float s.totals.timing)]),
      ("combined_cost", Json.ofOption Json.float s.combined),
      ("failures", .array (s.failures.map Diagnostic.toJson))]

end StressSummary

end WireCost
