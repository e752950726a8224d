import WireCost.Engine.Finding

/-! # Errors of a run

* **`RunError`** — why a run ends without a result, with its wording in `RunError.message`. -/

namespace WireCost

/-- Why a run ends without a result. -/
inductive RunError where
  /-- A tracked total has drifted from its recomputation. -/
  | drift (drift : Drift Float)
  /-- The device cannot hold a placement. -/
  | unsupportedDevice (reason : String)
  /-- A placement file cannot be used. -/
  | load (reason : String)
  /-- A consistency check of the engine failed. -/
  | inconsistent (reason : String)
deriving Repr

/-- What is said about a drifted total. -/
def Drift.message (d : Drift Float) : String :=
  s!"{d.kind.label} drifted: recomputed {Decimal.plain d.recomputed}, " ++
    s!"tracked {Decimal.plain d.tracked}"

/-- What is said about an error. -/
def RunError.message : RunError → String
  | .drift d => d.message
  | .unsupportedDevice reason => s!"unsupported device: {reason}"
  | .load reason => s!"failed to load placement: {reason}"
  | .inconsistent reason => s!"internal placement error: {reason}"

end WireCost
