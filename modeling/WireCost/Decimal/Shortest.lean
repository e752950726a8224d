import WireCost.Decimal.Binary

/-! # The fewest decimal digits that read back

Every double owns the interval of reals that round to it. The shortest text is a point of the
coarsest decimal grid that meets this interval, and of two such points the nearer one.

* **`Tie`** — which of two points is taken when both are equally near.
* **`Interval`** — the reals that round to a given double, in quarters of its last binary place.
* **`Interval.onGrid?`** — the point of one grid that is nearest to the value, if one lies inside.
* **`shortest`** — the first hit when the grids are tried from coarse to fine. -/

namespace WireCost.Decimal

/-- A decimal number `digits * 10 ^ exponent`. -/
structure Digits where
  digits : Nat
  exponent : Int
deriving DecidableEq, Repr

/-- Which of two neighbours on a grid is taken when both are equally near. -/
inductive Tie where
  /-- The one further from zero. -/
  | up
  /-- The one whose last digit is even. -/
  | even
deriving DecidableEq, Repr

/-- The neighbour of a tie, `below` being the one nearer to zero. -/
def Tie.pick (tie : Tie) (below : Nat) : Nat :=
  match tie with
  | .up => below + 1
  | .even => if below % 2 = 0 then below else below + 1

/-- **The reals that round to a double**, in units of `2 ^ exponent`: from `low` to `high` around
`centre`, the ends included when `closed`. -/
structure Interval where
  low : Nat
  centre : Nat
  high : Nat
  exponent : Int
  closed : Bool
deriving DecidableEq, Repr

/-- **The rounding interval of `mantissa * 2 ^ exponent`.** Each end lies half a binary place away,
but below a power of two the places are half as wide. Ties round to an even mantissa, so the ends
belong to the interval exactly when the mantissa is even. -/
def Interval.around (mantissa : Nat) (exponent : Int) : Interval where
  low := if mantissa = hiddenBit ∧ exponent > -1074 then 4 * mantissa - 1 else 4 * mantissa - 2
  centre := 4 * mantissa
  high := 4 * mantissa + 2
  exponent := exponent - 2
  closed := mantissa % 2 = 0

/-- Whether `point * 10 ^ step` lies in the interval. -/
def Interval.holds (i : Interval) (step : Int) (point : Nat) : Bool :=
  let low := gridRatio i.low i.exponent step
  let high := gridRatio i.high i.exponent step
  if i.closed then low.num ≤ point * low.den && point * high.den ≤ high.num
  else low.num < point * low.den && point * high.den < high.num

/-- The point of the grid of width `10 ^ step` inside the interval that is nearest to its centre.
Only the two neighbours of the centre need a test. -/
def Interval.onGrid? (i : Interval) (tie : Tie) (step : Int) : Option Nat :=
  let centre := gridRatio i.centre i.exponent step
  let below := centre.num / centre.den
  match i.holds step below, i.holds step (below + 1) with
  | true, true =>
    match compare (2 * (centre.num % centre.den)) centre.den with
    | .lt => some below
    | .eq => some (tie.pick below)
    | .gt => some (below + 1)
  | true, false => some below
  | false, true => some (below + 1)
  | false, false => none

/-- Drops the trailing zeros of a digit string into its exponent. -/
def Digits.strip (d : Digits) : Digits :=
  if _ : d.digits ≠ 0 ∧ d.digits % 10 = 0 then
    Digits.strip ⟨d.digits / 10, d.exponent + 1⟩
  else d
termination_by d.digits
decreasing_by exact Nat.div_lt_self (by omega) (by decide)

/-- Tries `steps` grids from the coarse one of width `10 ^ step` downwards. -/
def Interval.search (i : Interval) (tie : Tie) (step : Int) : Nat → Digits
  | 0 => ⟨0, step⟩
  | fuel + 1 =>
    match i.onGrid? tie step with
    | some d => Digits.strip ⟨d, step⟩
    | none => Interval.search i tie (step - 1) fuel

/-- **The shortest digits of a positive `mantissa * 2 ^ exponent`.** The search starts two places
above the leading decimal digit, where no point can lie inside, and seventeen digits always suffice
for a double, so twenty-four grids reach a hit. -/
def shortest (tie : Tie) (mantissa : Nat) (exponent : Int) : Digits :=
  let magnitude := ((Nat.log2 mantissa : Int) + exponent) * 30103 / 100000
  (Interval.around mantissa exponent).search tie (magnitude + 2) 24

end WireCost.Decimal
