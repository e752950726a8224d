/-! # Reading decimal numbers

* **`digitValue?`** — the value of a digit in a base.
* **`natOfDigits?`** — the number that a digit string writes.
* **`nearest`** — the double nearest to a decimal number.
* **`ofText?`** — the double that a decimal text with sign, fraction and exponent writes. -/

namespace WireCost.Decimal

/-- The value of a character as a digit of base `base`, letters of either case included. -/
def digitValue? (base : Nat) (c : Char) : Option Nat :=
  let value? :=
    if '0' ≤ c ∧ c ≤ '9' then some (c.toNat - '0'.toNat)
    else if 'a' ≤ c ∧ c ≤ 'f' then some (c.toNat - 'a'.toNat + 10)
    else if 'A' ≤ c ∧ c ≤ 'F' then some (c.toNat - 'A'.toNat + 10)
    else none
  value?.filter (· < base)

/-- Whether a character is one of the ten decimal digits. -/
def isDigit (c : Char) : Bool := (digitValue? 10 c).isSome

/-- The number that a string of digits of base `base` writes; there is none without digits. -/
def natOfDigits? (base : Nat) (digits : List Char) : Option Nat :=
  if digits.isEmpty then none
  else digits.foldlM (fun n c => (digitValue? base c).map (n * base + ·)) 0

/-- **The double nearest to `±digits * 10 ^ exponent`.** Far outside the range of doubles the answer
is an infinity or zero, whatever the digits. -/
def nearest (negative : Bool) (digits : Nat) (exponent : Int) : Float :=
  let size := (Nat.log2 digits : Int) * 30103 / 100000 + exponent
  let magnitude : Float :=
    if digits = 0 then 0.0
    else if size > 320 then 1.0 / 0.0
    else if size < -400 then 0.0
    else if exponent ≥ 0 then Float.ofScientific digits false exponent.toNat
    else Float.ofScientific digits true (-exponent).toNat
  if negative then -magnitude else magnitude

/-- The double nearest to a whole number. -/
def nearestInt (n : Int) : Float := nearest (n < 0) n.natAbs 0

/-- A whole number with an optional sign. -/
def intOfText? : List Char → Option Int
  | '+' :: digits => (natOfDigits? 10 digits).map Int.ofNat
  | '-' :: digits => (natOfDigits? 10 digits).map (- Int.ofNat ·)
  | digits => (natOfDigits? 10 digits).map Int.ofNat

/-- **The double that a decimal text writes:** an optional sign, digits, and optionally a fraction
and an exponent. -/
def ofText? (text : List Char) : Option Float := do
  let (negative, text) := match text with
    | '-' :: rest => (true, rest)
    | '+' :: rest => (false, rest)
    | rest => (false, rest)
  let whole := text.takeWhile isDigit
  let (fraction, rest) := match text.dropWhile isDigit with
    | '.' :: rest => (rest.takeWhile isDigit, rest.dropWhile isDigit)
    | rest => ([], rest)
  let exponent ← match rest with
    | [] => some 0
    | e :: rest => if e = 'e' ∨ e = 'E' then intOfText? rest else none
  let digits ← natOfDigits? 10 (whole ++ fraction)
  some (nearest negative digits (exponent - fraction.length))

end WireCost.Decimal
