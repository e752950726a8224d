import WireCost.Device
import WireCost.Scalar

/-! # Channel factors

A net that crosses narrow channels costs more. For every span of channels `low..=high` the factor is
the inverse of the average track count over the span, raised to an exponent.

* **`SpanTable`** — one number for every span, stored row by row in a triangle.
* **`SpanTable.totals`** — the track totals of all spans.
* **`SpanTable.ofTracks`** — the factors along one axis, written over the totals, with the spans
  that have no tracks at all.
* **`ChannelFactors.ofDevice`** — the factors of both axes. -/

namespace WireCost

variable {α : Type} [CostScalar α]

/-! ## Tables over spans -/

/-- One number for every span `low..=high` with `high < size`. -/
structure SpanTable (α : Type) where
  size : Nat
  values : Array α
deriving Repr, Inhabited

namespace SpanTable

/-- The place of a span: the spans ending at `high` follow all that end before it. -/
def offset (high low : Nat) : Nat := high * (high + 1) / 2 + low

/-- The number at the place of a span. -/
def slot (t : SpanTable α) (high low : Nat) : Checked α := entry t.values (offset high low)

/-- The number of a span. -/
def get (t : SpanTable α) (high low : Nat) : Checked α := do
  require (low ≤ high ∧ high < t.size) (.spanOutOfTable high low)
  t.slot high low

/-- Replaces the number at the place of a span. -/
def put (t : SpanTable α) (high low : Nat) (v : α) : Checked (SpanTable α) := do
  require (offset high low < t.values.size) .outOfRange
  .ok { t with values := t.values.setIfInBounds (offset high low) v }

/-- A table with a zero for every span. -/
def blank (size : Nat) : SpanTable α := ⟨size, Array.replicate (size * (size + 1) / 2) zero⟩

end SpanTable

/-! ## Factors along one axis -/

namespace SpanTable

/-- The track total of the span `low..=high`: the total of the span without channel `high`, in the
row above, with the tracks of channel `high` added. -/
def putTotal (tracks : α) (high : Nat) (t : SpanTable α) (low : Nat) : Checked (SpanTable α) := do
  let above ← t.slot (high - 1) low
  t.put high low (above + tracks)

/-- The track totals of the spans that end at `high`. -/
def putRow (tracks : List α) (t : SpanTable α) (high : Nat) : Checked (SpanTable α) := do
  let last ← entry tracks high
  let t ← t.put high high last
  (List.range high).foldlM (putTotal last high) t

/-- **The track totals of all spans,** row by row. -/
def totals (tracks : List α) : Checked (SpanTable α) :=
  (List.range tracks.length).foldlM (putRow tracks) (blank tracks.length)

end SpanTable

/-- The factor of a span of `channels` channels with `total` tracks; a span without tracks counts as
having one. -/
def spanFactor (exponent : α) (channels : Nat) (total : α) : α :=
  CostScalar.power (ofCount channels / if total == zero then CostScalar.ofInt 1 else total) exponent

/-- Which channels a table is about. -/
inductive ChannelAxis where
  /-- Horizontal channels, one for each row. -/
  | horizontal
  /-- Vertical channels, one for each column. -/
  | vertical
deriving DecidableEq, Repr

/-- The name of an axis in reports. -/
def ChannelAxis.label : ChannelAxis → String
  | .horizontal => "chanx"
  | .vertical => "chany"

/-- A span of channels that has no tracks. -/
structure BareSpan where
  axis : ChannelAxis
  low : Nat
  high : Nat
deriving DecidableEq, Repr

namespace SpanTable

/-- Replaces the track total of a span by its factor, and notes the span if it has no tracks. -/
def convert (axis : ChannelAxis) (exponent : α) (high : Nat) (s : SpanTable α × Array BareSpan)
    (low : Nat) : Checked (SpanTable α × Array BareSpan) := do
  let total ← s.1.slot high low
  let t ← s.1.put high low (spanFactor exponent (high - low + 1) total)
  .ok (t, if total == zero then s.2.push ⟨axis, low, high⟩ else s.2)

/-- Replaces the totals of the spans that end at `high`. -/
def convertRow (axis : ChannelAxis) (exponent : α) (s : SpanTable α × Array BareSpan)
    (high : Nat) : Checked (SpanTable α × Array BareSpan) :=
  (List.range (high + 1)).foldlM (convert axis exponent high) s

/-- **The factors along one axis,** and the spans without tracks in the order of the table. The
totals of all spans are there before the first of them is replaced. -/
def ofTracks (axis : ChannelAxis) (exponent : α) (tracks : List Nat) :
    Checked (SpanTable α × List BareSpan) := do
  let totals ← totals (tracks.map (ofCount (α := α)))
  let (t, bare) ← (List.range tracks.length).foldlM (convertRow axis exponent) (totals, #[])
  .ok (t, bare.toList)

end SpanTable

/-! ## Both axes -/

/-- The channel factors of a device. -/
structure ChannelFactors (α : Type) where
  /-- Factors of horizontal channels, by row. -/
  x : SpanTable α
  /-- Factors of vertical channels, by column. -/
  y : SpanTable α
deriving Repr, Inhabited

namespace ChannelFactors

/-- Refuses channels whose spans cannot be told: a list of track counts takes four bytes a channel,
and a table eight bytes a span. -/
def requireRoom (channels : Nat) : Checked Unit := do
  Word.requireRoom 4 channels
  let pairs ← Word.nat64 (channels * (channels + 1))
  Word.requireRoom 8 (pairs / 2)

/-- **The channel factors of a device,** and the spans without tracks, rows before columns. -/
def ofDevice (d : Device) (exponent : α) : Checked (ChannelFactors α × List BareSpan) := do
  requireRoom d.height.toNat
  requireRoom d.width.toNat
  let (x, bareRows) ← SpanTable.ofTracks .horizontal exponent
    ((List.range d.height.toNat).map d.tracksOfRow)
  let (y, bareColumns) ← SpanTable.ofTracks .vertical exponent
    ((List.range d.width.toNat).map d.tracksOfColumn)
  .ok (⟨x, y⟩, bareRows ++ bareColumns)

/-- The factor of the horizontal channels `low..=high`. -/
def xFactor (f : ChannelFactors α) (high low : Nat) : Checked α := f.x.get high low

/-- The factor of the vertical channels `low..=high`. -/
def yFactor (f : ChannelFactors α) (high low : Nat) : Checked α := f.y.get high low

end ChannelFactors

end WireCost
