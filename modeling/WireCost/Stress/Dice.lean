import WireCost.Fault

/-! # Dice

The random self-check is written over any source of numbers that stay in the range asked for;
nothing else is assumed about it.

* **`Dice`** — such a source; **`draw`** throws it, or stops with a fault if the range is empty.
* **`chance`**, **`fraction`** — draws that decide and draws from the unit interval.
* **`MixedCounter`** — the source in use: a counter whose bits are mixed. -/

namespace WireCost

/-! ## Throwing dice -/

/-- A source of random whole numbers. -/
class Dice (σ : Type) where
  /-- A number from `low` to `high`, and the source after it. -/
  roll : (low high : Int) → low ≤ high → σ → { n : Int // low ≤ n ∧ n ≤ high } × σ

/-- A computation that throws dice and may stop with a fault. -/
abbrev Random (σ : Type) := StateT σ Checked

variable {σ : Type} [Dice σ]

/-- **A random number from `low` to `high`,** of which there has to be one. -/
def draw (low high : Int) : Random σ Int := fun dice =>
  if h : low ≤ high then
    let (n, dice) := Dice.roll low high h dice
    .ok (n.val, dice)
  else .error .emptyRange

/-- A draw from a range that is not empty stays in the range. -/
theorem draw_eq_ok {low high : Int} (h : low ≤ high) (dice : σ) :
    ∃ n rest, draw low high dice = .ok (n, rest) ∧ low ≤ n ∧ n ≤ high :=
  ⟨_, _, dif_pos h, (Dice.roll low high h dice).1.property⟩

/-- A draw from an empty range is a fault. -/
theorem draw_eq_error {low high : Int} (h : high < low) (dice : σ) :
    draw low high dice = .error .emptyRange :=
  dif_neg (by omega)

/-- The number of parts that the unit interval is divided into. -/
def unitParts : Int := 9007199254740992

/-- A random number of the unit interval, both ends included. -/
def fraction : Random σ Float := do
  let n ← draw 0 unitParts
  pure (Float.ofInt n / Float.ofInt unitParts)

/-- Whether something happens that has a given probability. What has probability one always
happens. -/
def chance (probability : Float) : Random σ Bool := do
  let n ← draw 0 (unitParts - 1)
  pure (Float.ofInt n / Float.ofInt unitParts < probability)

/-! ## A counter with mixed bits -/

/-- A counter that serves as a source of random numbers. -/
structure MixedCounter where
  count : UInt64
deriving DecidableEq, Repr, Inhabited

namespace MixedCounter

/-- Folds the upper bits of a word into its lower bits and multiplies. -/
def fold (word : UInt64) (shift : UInt64) (factor : UInt64) : UInt64 :=
  (word ^^^ (word >>> shift)) * factor

/-- The word of a counter: each bit of the count changes about half of its bits. -/
def word (c : MixedCounter) : UInt64 :=
  let w := fold (fold c.count 30 0xBF58476D1CE4E5B9) 27 0x94D049BB133111EB
  w ^^^ (w >>> 31)

/-- The counter after one step, which is odd and so runs through all counts. -/
def next (c : MixedCounter) : MixedCounter := ⟨c.count + 0x9E3779B97F4A7C15⟩

/-- The number of `low..=high` that a word selects. -/
def select (low high : Int) (h : low ≤ high) (word : UInt64) :
    { n : Int // low ≤ n ∧ n ≤ high } :=
  ⟨low + word.toNat % (high - low + 1), by
    have := Int.emod_nonneg word.toNat (show high - low + 1 ≠ 0 by omega)
    have := Int.emod_lt_of_pos word.toNat (show 0 < high - low + 1 by omega)
    omega⟩

instance : Dice MixedCounter where
  roll low high h c := (select low high h c.next.word, c.next)

end MixedCounter

end WireCost
