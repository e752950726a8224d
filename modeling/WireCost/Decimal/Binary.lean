/-! # The value of a double

A double is read off its 64 bits as a sign and an exact product `mantissa * 2 ^ exponent`, so that
its decimal text can be chosen in exact arithmetic on natural numbers.

* **`Binary`** — what the bits say: no number, an infinity, or a finite product.
* **`Ratio`** — a non-negative rational as a numerator and a denominator.
* **`gridRatio`** — a binary value measured in steps of a power of ten. -/

namespace WireCost.Decimal

/-- What the bits of a double stand for. -/
inductive Binary where
  /-- Not a number. -/
  | nan
  /-- An infinity. -/
  | infinite (negative : Bool)
  /-- The finite number `mantissa * 2 ^ exponent`, with its sign. -/
  | finite (negative : Bool) (mantissa : Nat) (exponent : Int)
deriving DecidableEq, Repr

/-- The bit above the fraction, which only numbers with a biased exponent of zero lack. -/
abbrev hiddenBit : Nat := 4503599627370496

/-- **The three fields of a double.** The top bit is the sign, the next eleven the biased exponent
and the low fifty-two the fraction; a biased exponent of zero marks a number without hidden bit. -/
def Binary.ofBits (bits : Nat) : Binary :=
  let fraction := bits % hiddenBit
  let biased : Nat := bits / hiddenBit % 2048
  let negative := bits / (hiddenBit * 2048) % 2 == 1
  if biased = 2047 then
    if fraction = 0 then .infinite negative else .nan
  else if biased = 0 then .finite negative fraction (-1074)
  else .finite negative (hiddenBit + fraction) ((biased : Int) - 1075)

/-- The value of a double. -/
def Binary.ofFloat (x : Float) : Binary := .ofBits x.toBits.toNat

/-- A non-negative rational number; the denominator is meant to be positive. -/
structure Ratio where
  num : Nat
  den : Nat
deriving DecidableEq, Repr

/-- **A binary value on a decimal grid.** `gridRatio m q k` is `m * 2 ^ q / 10 ^ k`: the number of
steps of width `10 ^ k` that lie below `m * 2 ^ q`. -/
def gridRatio (mantissa : Nat) (exponent : Int) (step : Int) : Ratio where
  num := mantissa * Nat.pow 2 exponent.toNat * Nat.pow 10 (-step).toNat
  den := Nat.pow 2 (-exponent).toNat * Nat.pow 10 step.toNat

/-- The denominator of a value on a grid is positive. -/
theorem gridRatio_den_pos (m : Nat) (q k : Int) : 0 < (gridRatio m q k).den :=
  Nat.mul_pos (Nat.pow_pos (by decide)) (Nat.pow_pos (by decide))

/-- The nearest whole number to a ratio, a tie going to the even neighbour. -/
def Ratio.round (r : Ratio) : Nat :=
  let whole := r.num / r.den
  let twice := 2 * (r.num % r.den)
  if twice < r.den then whole
  else if r.den < twice then whole + 1
  else if whole % 2 = 0 then whole
  else whole + 1

end WireCost.Decimal
