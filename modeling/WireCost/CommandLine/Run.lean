import WireCost.CommandLine.Directory
import WireCost.CommandLine.Invocation
import WireCost.Diagnostic.Text
import WireCost.Placement.Cost
import WireCost.Settings.Document
import WireCost.Stress.Summary

/-! # Running the program

A run is a function from what is asked for and from the contents of files to what is printed.

* **`Printed`** — the two output streams and the exit status.
* **`Invocation.run`** — a run; **`printedOf`** — a run from the command line. -/

namespace WireCost

/-! ## Surroundings -/

/-- What a run finds around it. -/
structure Surroundings where
  /-- What each path leads to. -/
  read : String → Except ReadFailure String
  /-- Whether diagnostics go to a terminal. -/
  terminal : Bool

/-- The configuration file that is used if it exists. -/
def configFile : String := "placecost.toml"

/-! ## Output -/

/-- What a run prints, and its exit status. -/
structure Printed where
  exit : UInt32
  output : String
  messages : String
deriving DecidableEq, Repr

/-- Why a run ends without a report. -/
inductive Failure where
  /-- An error, with what is said about it. -/
  | error (message : String)
  /-- A fault. -/
  | fault (fault : Fault)

/-- The output of a run that ends without a report, behind messages that came first. -/
def Failure.printed (messages : String) : Failure → Printed
  | .error message => ⟨1, "", messages ++ "error: " ++ message ++ "\n"⟩
  | .fault cause => ⟨101, "", messages ++ "fault: " ++ cause.message?.getD "out of range" ++ "\n"⟩

/-- The answer of a computation that may stop with a fault or answer with an error. -/
def reported {ε α : Type} (message : ε → String) : Checked (Except ε α) → Except Failure α
  | .error fault => .error (.fault fault)
  | .ok (.error e) => .error (.error (message e))
  | .ok (.ok a) => .ok a

/-- A report as indented JSON. -/
def jsonReport (j : Json) : String := j.pretty ++ "\n"

namespace Invocation

/-! ## What is read -/

/-- The files that a run looks at. -/
def paths (i : Invocation) : List String :=
  i.shared.config.getD configFile ::
    match i.command with
    | .cost path => [path]
    | .stress _ => []

/-- **The settings of a run:** those of the file that is asked for, or else of the configuration
file, if there is one. -/
def settings (i : Invocation) (around : Surroundings) : Except SettingsError Settings := do
  match i.shared.config with
  | some path =>
    match around.read path with
    | .ok text => Settings.ofText text
    | .error failure => .error (.unreadable failure.message)
  | none =>
    match around.read configFile with
    | .ok text => Settings.ofText text
    | .error failure =>
      if failure.atFile then .error (.unreadable failure.message) else .ok .standard

/-- The placement at a path. -/
def placement (around : Surroundings) (path : String) : Except PlacementDefect Placement :=
  match around.read path with
  | .ok text => Placement.ofText path text
  | .error failure => .error (.unreadable path failure.message)

/-! ## Messages -/

/-- Whether the steps of a run are announced. -/
def announces (i : Invocation) : Bool := !i.shared.quiet && i.format == .text

/-- The diagnostics that are told, each followed by a blank line. -/
def diagnosticsText (i : Invocation) (around : Surroundings) (ds : List Diagnostic) : String :=
  let colour := i.shared.colour == .always || i.shared.colour == .auto && around.terminal
  String.join ((ds.filter (i.shared.shows ·.severity)).map fun d => d.render colour ++ "\n")

/-! ## Costs -/

/-- What is announced before a placement is costed. -/
def costHeading (path : String) (p : Placement) : String :=
  s!"   Costing {path} ({p.netlist.blocks.size} blocks, {p.netlist.nets.size} nets on " ++
    s!"{p.device.width}x{p.device.height}x{p.device.layers})\n"

/-- The output of a report on a placement. -/
def printCost (i : Invocation) (around : Surroundings) (heading : String) (s : CostSummary) :
    Printed :=
  let exit := if s.hasErrors then 1 else 0
  match i.format with
  | .text => ⟨exit, s.toText, heading ++ i.diagnosticsText around s.diagnostics⟩
  | .json => ⟨exit, jsonReport s.toJson, heading⟩

/-- **Reports the cost of a placement file.** -/
def runCost (i : Invocation) (around : Surroundings) (path : String) : Printed :=
  match i.settings around with
  | .error e => (Failure.error e.message).printed ""
  | .ok settings =>
    match placement around path with
    | .error defect => (Failure.error (RunError.load defect.reason).message).printed ""
    | .ok p =>
      let heading := if i.announces then costHeading path p else ""
      match reported (fun d => (RunError.unsupportedDevice d.reason).message)
          (p.summarize settings) with
      | .error failure => failure.printed heading
      | .ok summary => i.printCost around heading summary

/-! ## Self-checks -/

/-- The settings with what the command line sets instead. -/
def override (o : StressOptions) (s : Settings) : Settings :=
  { s with
    stress := { s.stress with
      moves := (o.moves.map (·.toNat)).getD s.stress.moves
      seed := o.seed.getD s.stress.seed } }

/-- What is announced before a self-check. -/
def stressHeading (s : Scenario) (settings : Settings) : String :=
  s!"   Stressing {s.blocks} blocks, {s.nets} nets on {s.grid}x{s.grid}x{s.layers} " ++
    s!"for {settings.stress.moves} moves (seed {settings.stress.seed})\n"

/-- The output of a report on a self-check. -/
def printStress (i : Invocation) (around : Surroundings) (heading : String) (s : StressSummary) :
    Printed :=
  let exit := if s.failures.isEmpty then 0 else 1
  let progress :=
    if i.shared.verbose && !i.shared.quiet then String.join (s.checkpoints.map Checkpoint.toText)
    else ""
  match i.format with
  | .text =>
    ⟨exit, s.toText, heading ++ progress ++ i.diagnosticsText around s.diagnostics ++
      (if i.shared.quiet then "" else s.closing)⟩
  | .json => ⟨exit, jsonReport s.toJson, heading ++ progress⟩

/-- **Runs a self-check.** -/
def runStress (i : Invocation) (around : Surroundings) (o : StressOptions) : Printed :=
  match i.settings around with
  | .error e => (Failure.error e.message).printed ""
  | .ok settings =>
    let settings := override o settings
    let heading := if i.announces then stressHeading o.scenario settings else ""
    let dice : MixedCounter := ⟨settings.stress.seed⟩
    match reported StressError.message ((o.scenario.simulate settings).run' dice) with
    | .error failure => failure.printed heading
    | .ok summary => i.printStress around heading summary

/-! ## Runs -/

/-- **What a run prints.** -/
def run (i : Invocation) (around : Surroundings) : Printed :=
  match i.command with
  | .cost path => i.runCost around path
  | .stress options => i.runStress around options

end Invocation

/-- What is printed when the reading of the command line stops. -/
def Halt.printed : Halt → Printed
  | .usage => ⟨2, "", usageText⟩
  | .help => ⟨0, usageText, ""⟩
  | .version => ⟨0, versionText, ""⟩

/-- **What the program prints** when it is called with some arguments. -/
def printedOf (args : List String) (around : Surroundings) : Printed :=
  match Invocation.ofArguments args with
  | .error reason => reason.printed
  | .ok i => i.run around

end WireCost
