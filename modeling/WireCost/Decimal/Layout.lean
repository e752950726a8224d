import WireCost.Decimal.Shortest

/-! # The text of a number

Three layouts of a double, all chosen from its exact value.

* **`plain`** — the fewest digits that read back, never with an exponent; used in messages.
* **`fixed`** — a given number of decimal places, a tie going to the even digit; used in reports.
* **`compact?`** — the fewest digits, always with a point or an exponent; used in JSON documents. -/

namespace WireCost.Decimal

/-- A text of `n` zeros. -/
def zeros (n : Nat) : String := String.ofList (List.replicate n '0')

/-- Puts a decimal point `places` digits from the end of the digits of `n`, with at least one digit
before the point. -/
def withPoint (n places : Nat) : String :=
  let text := toString n
  let padded := zeros (places + 1 - text.length) ++ text
  let whole := padded.length - places
  String.ofList (padded.toList.take whole) ++ "." ++ String.ofList (padded.toList.drop whole)

/-- The sign written before a negative number. -/
def sign (negative : Bool) : String := if negative then "-" else ""

/-- Digits in positional notation, without a point when the number is whole. -/
def Digits.positional (d : Digits) : String :=
  if d.exponent ≥ 0 then toString d.digits ++ zeros d.exponent.toNat
  else withPoint d.digits (-d.exponent).toNat

/-- A power of ten as it is written after a number: the mark, the sign (also when it is plus) and
the digits of the exponent, without padding. -/
def powerOfTen (e : Int) : String := (if e < 0 then "e" else "e+") ++ toString e

/-- Digits with one digit before the point and a signed decimal exponent. -/
def Digits.scientific (d : Digits) : String :=
  match (toString d.digits).toList with
  | [] => ""
  | [c] => String.singleton c ++ powerOfTen d.exponent
  | c :: rest =>
    String.singleton c ++ "." ++ String.ofList rest ++ powerOfTen (d.exponent + rest.length)

/-- **A number in a message:** the fewest digits that read back, written out in full; a tie goes
away from zero. -/
def plain (x : Float) : String :=
  match Binary.ofFloat x with
  | .nan => "NaN"
  | .infinite negative => sign negative ++ "inf"
  | .finite negative 0 _ => sign negative ++ "0"
  | .finite negative mantissa exponent =>
    sign negative ++ (shortest .up mantissa exponent).positional

/-- **A number in a report:** exactly `places` digits after the point. -/
def fixed (places : Nat) (x : Float) : String :=
  match Binary.ofFloat x with
  | .nan => "NaN"
  | .infinite negative => sign negative ++ "inf"
  | .finite negative mantissa exponent =>
    let scaled := (gridRatio mantissa exponent (-(places : Int))).round
    sign negative ++ if places = 0 then toString scaled else withPoint scaled places

/-- **A number in a JSON document:** the fewest digits, in positional notation with a point when the
point falls at most five places before or sixteen places after the first digit, and with a signed
exponent otherwise. A tie goes to the even digit, and a number that JSON cannot hold has no text. -/
def compact? (x : Float) : Option String :=
  match Binary.ofFloat x with
  | .nan => none
  | .infinite _ => none
  | .finite negative 0 _ => some (sign negative ++ "0.0")
  | .finite negative mantissa exponent =>
    let d := shortest .even mantissa exponent
    let point := d.exponent + (toString d.digits).length
    let text :=
      if -5 < point ∧ point ≤ 16 then
        if d.exponent ≥ 0 then d.positional ++ ".0" else d.positional
      else d.scientific
    some (sign negative ++ text)

end WireCost.Decimal
