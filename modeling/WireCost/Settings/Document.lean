import WireCost.Settings.Check
import WireCost.Toml.Document

/-! # Reading settings from a configuration file

Every section and every key may be missing and unknown ones are skipped. A section may also be an
array that lists its values in order, and a date in place of a section sets nothing.

* **`Settings.ofText`** — the settings that a text sets, read and accepted. -/

namespace WireCost

/-! ## Values -/

namespace Toml

/-- A number; whole numbers count as numbers. -/
def float? : Toml → Option Float
  | .float x => some x
  | .integer n => some (Decimal.nearestInt n)
  | _ => none

/-- A truth value. -/
def bool? : Toml → Option Bool
  | .boolean b => some b
  | _ => none

/-- A whole number from zero up to, but not including, `size`. -/
def natBelow? (size : Nat) : Toml → Option Nat
  | .integer n => if 0 ≤ n ∧ n < size then some n.toNat else none
  | _ => none

/-- One of several names, as a string or as the only key of a table that holds something empty. -/
def choice? {α : Type} (cases : List (String × α)) : Toml → Option α
  | .string s => cases.lookup s
  | .table [(s, .table [])] => cases.lookup s
  | .table [(s, .array [])] => cases.lookup s
  | _ => none

/-- The values of a section, of which only `names` are known. -/
def section? (names : List String) : Toml → Option (List (String × Toml))
  | .table fields => some fields
  | .array items => some (names.zip items)
  | .datetime => some []
  | _ => none

/-- A value of a section, or the one in use unless it is set. -/
def setting {α : Type} (values : List (String × Toml)) (name : String) (standard : α)
    (read : Toml → Option α) : Option α :=
  match values.lookup name with
  | some v => read v
  | none => some standard

end Toml

/-! ## Sections -/

/-- The form choice that a value names. -/
def FormChoice.ofToml? : Toml → Option FormChoice :=
  Toml.choice? [("auto", .auto), ("cube", .cube), ("per_layer", .perLayer)]

/-- The cost settings that a section sets. -/
def CostSettings.ofToml? (t : Toml) : Option (CostSettings Float) := do
  let s := CostSettings.standard
  let values ← t.section?
    ["place_cost_exp", "small_net_threshold", "bounding_box", "error_tolerance"]
  let exponent ← Toml.setting values "place_cost_exp" s.exponent Toml.float?
  let smallNet ← Toml.setting values "small_net_threshold" s.smallNet (Toml.natBelow? Word.size64)
  let form ← Toml.setting values "bounding_box" s.form FormChoice.ofToml?
  let tolerance ← Toml.setting values "error_tolerance" s.tolerance Toml.float?
  some ⟨exponent, smallNet, form, tolerance⟩

/-- The timing settings that a section sets. -/
def TimingSettings.ofToml? (t : Toml) : Option TimingSettings := do
  let s := TimingSettings.standard
  let values ← t.section? ["enabled", "tradeoff"]
  let enabled ← Toml.setting values "enabled" s.enabled Toml.bool?
  let tradeoff ← Toml.setting values "tradeoff" s.tradeoff Toml.float?
  some ⟨enabled, tradeoff⟩

/-- The stress settings that a section sets. -/
def StressSettings.ofToml? (t : Toml) : Option StressSettings := do
  let s := StressSettings.standard
  let values ← t.section?
    ["moves", "recompute_interval", "accept_probability", "range_limit", "seed"]
  let moves ← Toml.setting values "moves" s.moves (Toml.natBelow? Word.size64)
  let interval ← Toml.setting values "recompute_interval" s.interval (Toml.natBelow? Word.size64)
  let acceptance ← Toml.setting values "accept_probability" s.acceptance Toml.float?
  let range ← Toml.setting values "range_limit" s.range fun v =>
    (v.natBelow? Word.size32).map .ofNat
  let seed ← Toml.setting values "seed" s.seed fun v => (v.natBelow? Word.size64).map .ofNat
  some ⟨moves, interval, acceptance, range, seed⟩

/-- The settings that a document sets. -/
def Settings.ofFields? (fields : List (String × Toml)) : Option Settings := do
  let s := Settings.standard
  let cost ← Toml.setting fields "cost" s.cost CostSettings.ofToml?
  let timing ← Toml.setting fields "timing" s.timing TimingSettings.ofToml?
  let stress ← Toml.setting fields "stress" s.stress StressSettings.ofToml?
  some ⟨cost, timing, stress⟩

/-- **The settings that a text sets,** if it is a configuration and all numbers are in range. -/
def Settings.ofText (text : String) : Except SettingsError Settings := do
  match (Toml.parse text).bind Settings.ofFields? with
  | none => .error .unparsable
  | some s =>
    s.check
    .ok s

end WireCost
