import WireCost.CommandLine.Switch
import WireCost.Decimal.Reading
import WireCost.Diagnostic.Basic
import WireCost.Stress.Scenario

/-! # Invocations

* **`Invocation`** — what a run of the program is asked to do.
* **`Invocation.ofArguments`** — reads it from the command line.
* **`usageText`**, **`versionText`** — what the program says about itself. -/

namespace WireCost

/-! ## What is asked for -/

/-- When diagnostics are coloured. -/
inductive ColourChoice where
  /-- When they go to a terminal. -/
  | auto
  | always
  | never
deriving DecidableEq, Repr, Inhabited

/-- The form of the output. -/
inductive ReportFormat where
  | text
  | json
deriving DecidableEq, Repr, Inhabited

/-- Switches that every command has. -/
structure SharedOptions where
  /-- Whether only errors are told beside the results. -/
  quiet : Bool
  /-- Whether notes and progress are told, too. -/
  verbose : Bool
  colour : ColourChoice
  /-- The configuration file, unless it is the one in the current directory. -/
  config : Option String
deriving DecidableEq, Repr, Inhabited

/-- Whether diagnostics of a severity are told. -/
def SharedOptions.shows (o : SharedOptions) : Severity → Bool
  | .error => true
  | .warning => !o.quiet
  | .note => o.verbose && !o.quiet

/-- What a self-check is asked to do. -/
structure StressOptions where
  scenario : Scenario
  /-- The number of moves, unless it is the configured one. -/
  moves : Option UInt64
  /-- The seed, unless it is the configured one. -/
  seed : Option UInt64
deriving DecidableEq, Repr, Inhabited

/-- The self-check that is run unless something else is asked for. -/
def StressOptions.standard : StressOptions := ⟨⟨200, 150, 1, 24, 8, 16⟩, none, none⟩

/-- What to do. -/
inductive Command where
  /-- Report the cost of a placement file. -/
  | cost (path : String)
  /-- Run a self-check. -/
  | stress (options : StressOptions)
deriving DecidableEq, Repr

/-- A run of the program. -/
structure Invocation where
  shared : SharedOptions
  format : ReportFormat
  command : Command
deriving DecidableEq, Repr

/-! ## Values -/

/-- A whole number that is a word of 64 bits; a plus sign may stand before it. -/
def wordOfText? (text : String) : Option UInt64 := do
  let n ← match text.toList with
    | '+' :: digits => Decimal.natOfDigits? 10 digits
    | digits => Decimal.natOfDigits? 10 digits
  if n < Word.size64 then some (.ofNat n) else none

/-- A whole number that is a word of 32 bits; a sign may stand before it. -/
def tracksOfText? (text : String) : Option UInt32 := do
  let n ← Decimal.intOfText? text.toList
  if 0 ≤ n ∧ n < Word.size32 then some (.ofNat n.toNat) else none

/-- The colour choice that a text names. -/
def ColourChoice.ofText? (text : String) : Option ColourChoice :=
  [("auto", .auto), ("always", .always), ("never", .never)].lookup text

/-- The format that a text names. -/
def ReportFormat.ofText? (text : String) : Option ReportFormat :=
  [("text", .text), ("json", .json)].lookup text

/-! ## Switches -/

/-- What has been read so far. -/
structure Draft where
  shared : SharedOptions
  format : ReportFormat
  path : Option String
  stress : StressOptions

namespace Draft

/-- What is set unless a switch says otherwise. -/
def standard : Draft := ⟨⟨false, false, .auto, none⟩, .text, none, .standard⟩

/-- Changes the scenario of the self-check. -/
def updateScenario (f : Scenario → Scenario) (d : Draft) : Draft :=
  { d with stress := { d.stress with scenario := f d.stress.scenario } }

/-- A switch that sets a number of the scenario. -/
def sizeSwitch (name : String) (set : UInt64 → Scenario → Scenario) : Switch Draft :=
  .option name none wordOfText? fun n => updateScenario (set n)

/-- The switches that every command has. -/
def sharedSwitches : List (Switch Draft) :=
  [.flag "quiet" (some 'q') fun d => { d with shared.quiet := true },
    .flag "verbose" (some 'v') fun d => { d with shared.verbose := true },
    .option "color" none ColourChoice.ofText? fun colour d => { d with shared.colour := colour },
    .option "config" none some fun path d => { d with shared.config := some path },
    .halt "help" (some 'h') .help]

/-- The switches before the command. -/
def leadingSwitches : List (Switch Draft) := .halt "version" (some 'V') .version :: sharedSwitches

/-- The switches of all commands that report something. -/
def reportSwitches : List (Switch Draft) :=
  .option "format" (some 'f') ReportFormat.ofText? (fun format d => { d with format }) ::
    sharedSwitches

/-- The switches of the self-check. -/
def stressSwitches : List (Switch Draft) :=
  [sizeSwitch "nets" fun nets s => { s with nets },
    sizeSwitch "blocks" fun blocks s => { s with blocks },
    sizeSwitch "layers" fun layers s => { s with layers },
    sizeSwitch "grid" fun grid s => { s with grid },
    .option "tracks" none tracksOfText? fun tracks => updateScenario fun s => { s with tracks },
    sizeSwitch "max-fanout" fun maxFanout s => { s with maxFanout },
    .option "moves" none wordOfText? fun n d => { d with stress.moves := some n },
    .option "seed" none wordOfText? fun n d => { d with stress.seed := some n }] ++ reportSwitches

/-- Takes the path of the placement file, of which there is one. -/
def takePath (path : String) (d : Draft) : Option Draft :=
  match d.path with
  | none => some { d with path := some path }
  | some _ => none

end Draft

/-! ## Reading -/

namespace Invocation

/-- Reads the arguments behind the name of a command. -/
def ofCommand (d : Draft) : String → List String → Except Halt Invocation
  | "cost", args => do
    let (d, _) ← readSwitches Draft.reportSwitches (.take Draft.takePath) ⟨[], d⟩ args
    match d.path with
    | some path => .ok ⟨d.shared, d.format, .cost path⟩
    | none => .error .usage
  | "stress", args => do
    let (d, _) ← readSwitches Draft.stressSwitches (.take fun _ _ => none) ⟨[], d⟩ args
    .ok ⟨d.shared, d.format, .stress d.stress⟩
  | "help", [] => .error .help
  | "help", [name] => .error (if ["cost", "stress", "help"].contains name then .help else .usage)
  | _, _ => .error .usage

/-- **Reads the command line.** A switch that every command has may stand before or behind the name
of the command, and behind it counts if it stands at both places. -/
def ofArguments (args : List String) : Except Halt Invocation := do
  match ← readSwitches Draft.leadingSwitches .stop ⟨[], .standard⟩ args with
  | (d, name :: args) => ofCommand d name args
  | (_, []) => .error .usage

end Invocation

/-! ## Texts -/

/-- The name of the program with its version. -/
def versionText : String := "placecost 0.1.0\n"

/-- How the program is used. -/
def usageText : String :=
  "Usage: placecost [OPTIONS] <COMMAND>\n\n" ++
  "Commands:\n" ++
  "  cost <PLACEMENT>  Report the bounding-box cost of a placement file\n" ++
  "  stress            Drive random moves through the engine and cross-check its totals\n\n" ++
  "Options:\n" ++
  "  -q, --quiet            Suppress all output except errors\n" ++
  "  -v, --verbose          Show notes and progress, too\n" ++
  "      --color <WHEN>     Color diagnostics: auto, always or never\n" ++
  "      --config <FILE>    Read settings from this file, not from placecost.toml\n" ++
  "  -f, --format <FORMAT>  Report as text or as json\n" ++
  "  -h, --help             Print this text\n" ++
  "  -V, --version          Print the version\n\n" ++
  "Options of stress:\n" ++
  "      --nets <N>  --blocks <N>  --layers <N>  --grid <N>  --tracks <N>\n" ++
  "      --max-fanout <N>  --moves <N>  --seed <N>\n"

end WireCost
