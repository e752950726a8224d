import WireCost.Diagnostic.Document
import WireCost.Diagnostic.Log
import WireCost.Engine.Audit
import WireCost.Json.Writer
import WireCost.Placement.Basic

/-! # The cost of a placement

* **`CostSummary`** — what is reported about a placement, as text or as JSON.
* **`Placement.summarize`** — builds an engine for a placement and costs it. -/

namespace WireCost

/-- What is reported about a placement. -/
structure CostSummary where
  form : BoxForm
  nets : Nat
  box : Float
  wirelength : Option Float
  /-- The timing cost, if delays enter the cost. -/
  timing : Option Float
  /-- Box and timing cost as one, if delays enter the cost. -/
  combined : Option Float
  diagnostics : List Diagnostic

namespace CostSummary

/-- A line of a report, for a number that may be missing. -/
def line (label : String) (places : Nat) (x? : Option Float) : String :=
  match x? with
  | some x => label ++ Decimal.fixed places x ++ "\n"
  | none => ""

/-- A summary as text. -/
def toText (s : CostSummary) : String :=
  s!"bounding box form: {s.form.label}\n" ++
    line "bb cost:           " 6 s.box ++
    line "wirelength:        " 3 s.wirelength ++
    line "timing cost:       " 6 s.timing ++
    line "combined cost:     " 6 s.combined

/-- A summary as a JSON value. -/
def toJson (s : CostSummary) : Json :=
  .object
    [("bounding_box", .string s.form.label), ("nets", .nat s.nets), ("bb_cost", Json.float s.box),
      ("wirelength", Json.ofOption Json.float s.wirelength),
      ("timing_cost", Json.ofOption Json.float s.timing),
      ("combined_cost", Json.ofOption Json.float s.combined),
      ("diagnostics", .array (s.diagnostics.map Diagnostic.toJson))]

/-- Whether an error was noticed. -/
def hasErrors (s : CostSummary) : Bool := s.diagnostics.any (·.severity.isError)

end CostSummary

/-- What a timed run needs when every connection is fully critical. -/
def TimingInputs.standard (nl : Netlist) : TimingInputs Float32 where
  delay := manhattan .standard
  criticality := (Criticality.uniform nl 1.0).get

/-- **Costs a placement,** with delays if the settings ask for them. -/
def Placement.summarize (p : Placement) (s : Settings) :
    Checked (Except DeviceDefect CostSummary) := do
  match ← Engine.ofDevice p.netlist p.device s.cost with
  | .error defect => .ok (.error defect)
  | .ok (engine, found) =>
    let (engine, report, more) ← engine.rebuild p.netlist true
    let timing ←
      if s.timing.enabled then
        let (_, cost) ← engine.recomputeTiming p.netlist (.standard p.netlist)
        pure (some cost)
      else pure none
    .ok (.ok {
      form := engine.form
      nets := p.netlist.nets.size
      box := report.total
      wirelength := report.wirelength
      timing
      combined := timing.map fun t => Totals.combined ⟨report.total, t⟩ s.timing.tradeoff
      diagnostics := (found ++ more).map Finding.diagnostic })

end WireCost
