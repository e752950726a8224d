import WireCost.ChannelFactors
import WireCost.Decimal.Layout
import WireCost.Diagnostic.Basic
import WireCost.Geometry.Basic

/-! # Findings of the engine

The engine tells what it noticed as data; the wording is added where a log is kept.

* **`Finding`** — what the engine can notice.
* **`Finding.diagnostic`** — the diagnostic of a finding. -/

namespace WireCost

/-- Which running total a check is about. -/
inductive TotalKind where
  /-- The bounding-box cost. -/
  | box
  /-- The timing cost. -/
  | timing
deriving DecidableEq, Repr, Inhabited

/-- The name of a total in reports. -/
def TotalKind.label : TotalKind → String
  | .box => "bb_cost"
  | .timing => "timing_cost"

/-- A tracked total that differs from its recomputation. -/
structure Drift (α : Type) where
  kind : TotalKind
  tracked : α
  recomputed : α
deriving Repr, Inhabited

/-- What the engine notices. -/
inductive Finding (α : Type) where
  /-- A span of channels has no tracks. -/
  | bareSpan (span : BareSpan)
  /-- The box form in use. -/
  | boxForm (form : BoxForm) (nets layers : Nat)
  /-- The wirelength estimate. -/
  | wirelength (length : α)
  /-- A tracked total is too far off. -/
  | drift (drift : Drift α) (tolerance : α)
deriving Repr

/-- The code of a finding. -/
def Finding.code {α : Type} : Finding α → Code
  | .bareSpan _ => .bareSpan
  | .boxForm .. => .boxForm
  | .wirelength _ => .wirelength
  | .drift ⟨.box, _, _⟩ _ => .boxDrift
  | .drift ⟨.timing, _, _⟩ _ => .timingDrift

/-- The severity of a finding. -/
def Finding.severity {α : Type} : Finding α → Severity
  | .bareSpan _ => .warning
  | .boxForm .. => .note
  | .wirelength _ => .note
  | .drift .. => .error

/-- **The diagnostic of a finding.** -/
def Finding.diagnostic (f : Finding Float) : Diagnostic :=
  let say := Diagnostic.plain f.severity f.code
  match f with
  | .bareSpan s =>
    (say s!"{s.axis.label} channels {s.low}..={s.high} have no tracks")
      |>.about s!"{s.axis.label}[{s.high}][{s.low}]"
      |>.noting "treating the span as a single track"
  | .boxForm form nets layers =>
    (say s!"using {form.label} bounding boxes")
      |>.noting s!"{nets} nets on a {layers}-layer device"
  | .wirelength length => say s!"bounding-box wirelength estimate: {Decimal.fixed 3 length}"
  | .drift d tolerance =>
    (say s!"{d.kind.label} is out of step with the placement")
      |>.noting s!"recomputed {Decimal.plain d.recomputed}, tracked {Decimal.plain d.tracked}"
      |>.advising s!"relative tolerance is {Decimal.plain tolerance}"

end WireCost
