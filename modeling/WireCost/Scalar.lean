/-! # Numbers that costs are computed with

The engine is written over any numbers with the operations below, so that the same definitions run
on doubles and can be studied on exact numbers.

* **`CostScalar`** — costs, channel factors and wirelengths; run on `Float`.
* **`DelayScalar`** — delays and criticalities; run on `Float32` and weighed as a cost.
* **`sum`** — the sum of a list, from left to right.

Neither class states a law. -/

namespace WireCost

/-- The operations on costs. -/
class CostScalar (α : Type) extends Add α, Sub α, Mul α, Div α, BEq α, LE α where
  /-- A whole number as a cost. -/
  ofInt : Int → α
  /-- The decimal number `digits * 10 ^ -places`. -/
  ofDecimal : (digits places : Nat) → α
  /-- The power of a number to an exponent. -/
  power : (base exponent : α) → α
  /-- The distance from zero. -/
  magnitude : α → α
  /-- What a sum starts from: adding it to any number gives that number. -/
  neutral : α
  /-- Costs can be compared. -/
  decLe : DecidableLE α

/-- The operations on delays and criticalities, which are weighed as costs in `α`. -/
class DelayScalar (δ : Type) (α : outParam Type) extends Add δ, Mul δ, BEq δ where
  /-- A whole number as a delay. -/
  ofInt : Int → δ
  /-- A delay, or a criticality, as a cost. -/
  toCost : δ → α

instance decidableLe {α : Type} [CostScalar α] : DecidableLE α := CostScalar.decLe

section

variable {α : Type} [CostScalar α]

/-- The cost of nothing. -/
def zero : α := CostScalar.ofInt 0

/-- **The sum of a list,** its terms added from left to right. -/
def sum (terms : List α) : α := terms.foldl (· + ·) CostScalar.neutral

/-- A natural number as a cost. -/
def ofCount (n : Nat) : α := CostScalar.ofInt n

end

/-- Costs as doubles. A sum starts from negative zero, which changes no double that is added. -/
instance : CostScalar Float where
  ofInt := Float.ofInt
  ofDecimal digits places := Float.ofScientific digits true places
  power := Float.pow
  magnitude := Float.abs
  neutral := -0.0
  decLe := Float.decLe

/-- Delays in single precision; weighing them as doubles loses nothing. A whole number is first
taken as a double, which holds every coordinate distance exactly. -/
instance : DelayScalar Float32 Float where
  ofInt n := (Float.ofInt n).toFloat32
  toCost := Float32.toFloat

end WireCost
