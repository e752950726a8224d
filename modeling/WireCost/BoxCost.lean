import WireCost.ChannelFactors

/-! # The cost of one box

The wiring of a net is estimated from its box: span times a correction for the number of pins, each
axis weighed by the factor of the channels that the box crosses.

* **`crossing`** — the expected number of crossings for a number of pins.
* **`boxCost`** — the cost of a box; **`boxLength`** — its wirelength without channel factors. -/

namespace WireCost

variable {α : Type} [CostScalar α]

/-- Expected crossings of nets with 1 to 50 pins, in ten-thousandths. -/
def crossings : List Nat :=
  [10000, 10000, 10000, 10828, 11536, 12206, 12823, 13385, 13991, 14493,
    14974, 15455, 15937, 16418, 16899, 17304, 17709, 18114, 18519, 18924,
    19288, 19652, 20015, 20379, 20743, 21061, 21379, 21698, 22016, 22334,
    22646, 22958, 23271, 23583, 23895, 24187, 24479, 24772, 25064, 25356,
    25610, 25864, 26117, 26371, 26625, 26887, 27148, 27410, 27671, 27933]

/-- **The crossings of a net with `pins` pins:** tabulated up to fifty pins, linear beyond. -/
def crossing (pins : Nat) : α :=
  if pins > 50 then
    CostScalar.ofDecimal 27933 4 + CostScalar.ofDecimal 2616 5 * ofCount (pins - 50)
  else CostScalar.ofDecimal (crossings[max pins 1 - 1]?.getD 0) 4

/-- The number of lines that a span covers. -/
def Span.lines (s : Span) : Checked Int := do
  Word.int32 ((← Word.int32 (s.high.line - s.low.line)) + 1)

/-- The factor of the channels beside the lines of a span: from the one before its first line to the
one behind its last line. -/
def Span.factor (s : Span) (table : SpanTable α) : Checked α := do
  let before ← Word.int32 (s.low.line - 1)
  table.get (Word.asNat64 s.high.line) (Word.asNat64 before)

/-- **The cost of a box that spans `pins` pins.** Horizontal wires run in the channels of its rows,
vertical ones in those of its columns. -/
def boxCost (factors : ChannelFactors α) (b : EdgeBox) (pins : Nat) : Checked α := do
  let xspan ← b.x.lines
  let yspan ← b.y.lines
  let xfactor ← b.y.factor factors.x
  let yfactor ← b.x.factor factors.y
  .ok (CostScalar.ofInt xspan * crossing pins * xfactor +
    CostScalar.ofInt yspan * crossing pins * yfactor)

/-- The wirelength estimate of a box that spans `pins` pins, without channel factors. -/
def boxLength (b : EdgeBox) (pins : Nat) : Checked α := do
  let xspan ← b.x.lines
  let yspan ← b.y.lines
  .ok (CostScalar.ofInt xspan * crossing pins + CostScalar.ofInt yspan * crossing pins)

end WireCost
