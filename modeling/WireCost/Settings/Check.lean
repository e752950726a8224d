import WireCost.Decimal.Layout
import WireCost.Settings.Basic

/-! # Accepting settings

* **`SettingsError`** — why settings cannot be used.
* **`Settings.check`** — the ranges of all numbers, tested in a fixed order. -/

namespace WireCost

/-- Why settings cannot be used. -/
inductive SettingsError where
  /-- The file cannot be read. -/
  | unreadable (reason : String)
  /-- The file is not a configuration. -/
  | unparsable
  /-- A setting is out of range. -/
  | invalid (key reason : String)
deriving DecidableEq, Repr

/-- What is said about unusable settings. -/
def SettingsError.message : SettingsError → String
  | .unreadable reason => s!"failed to read configuration: {reason}"
  | .unparsable => "failed to parse configuration: not a configuration"
  | .invalid key reason => s!"invalid value for `{key}`: {reason}"

namespace Settings

/-- Refuses a setting unless a condition holds. -/
def demand (condition : Bool) (key reason : String) : Except SettingsError Unit :=
  if condition then .ok () else .error (.invalid key reason)

/-- Whether a number is a share of the whole. -/
def isShare (x : Float) : Bool := 0.0 ≤ x && x ≤ 1.0

/-- **Accepts settings** whose numbers are in range; the first one out of range is reported. -/
def check (s : Settings) : Except SettingsError Unit := do
  demand (s.cost.exponent.isFinite && 0.0 < s.cost.exponent) "cost.place_cost_exp"
    s!"must be a positive number, got {Decimal.plain s.cost.exponent}"
  demand (s.cost.smallNet ≠ 0) "cost.small_net_threshold" "must be at least 1"
  demand (0.0 < s.cost.tolerance && s.cost.tolerance < 1.0) "cost.error_tolerance"
    s!"must be in (0, 1), got {Decimal.plain s.cost.tolerance}"
  demand (isShare s.timing.tradeoff) "timing.tradeoff"
    s!"must be in [0, 1], got {Decimal.plain s.timing.tradeoff}"
  demand (isShare s.stress.acceptance) "stress.accept_probability"
    s!"must be in [0, 1], got {Decimal.plain s.stress.acceptance}"
  demand (s.stress.range ≠ 0) "stress.range_limit" "must be at least 1"
  demand (s.stress.interval ≠ 0) "stress.recompute_interval" "must be at least 1"

end Settings

end WireCost
