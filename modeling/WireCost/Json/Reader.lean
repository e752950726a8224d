import WireCost.Json.Basic
import WireCost.Decimal.Reading

/-! # Reading JSON

A reader for the whole grammar: each function takes the characters that are left and returns what it
read with the rest.

* **`Json.parse`** — the document that a text writes; the text may hold nothing else but blanks.
* **`Json.readString`** — the body of a string, up to its closing quote.
* **`Json.readNumber`** — a number, kept as it is written unless it is a whole number. -/

namespace WireCost.Json

/-- Whether a character separates tokens. -/
def isBlank (c : Char) : Bool := c == ' ' || c == '\t' || c == '\n' || c == '\r'

/-- Skips blanks. -/
def skip (s : List Char) : List Char := s.dropWhile isBlank

/-- The character that a simple escape stands for. -/
def simpleEscape? : Char → Option Char
  | '"' => some '"'
  | '\\' => some '\\'
  | '/' => some '/'
  | 'b' => some '\x08'
  | 'f' => some '\x0c'
  | 'n' => some '\n'
  | 'r' => some '\r'
  | 't' => some '\t'
  | _ => none

/-- A piece of a string: a character, or half of a surrogate pair on its own. -/
abbrev Piece := Option Char

/-- A string from its pieces; there is none when a surrogate is unpaired. -/
def ofPieces (pieces : List Piece) : Option String := (pieces.mapM id).map String.ofList

/-- The body of a string, the opening quote already read. -/
def readString : List Char → Option (List Piece × List Char)
  | [] => none
  | '"' :: rest => some ([], rest)
  | '\\' :: 'u' :: a :: b :: c :: d :: '\\' :: 'u' :: e :: f :: g :: h :: rest => do
    let first ← Decimal.natOfDigits? 16 [a, b, c, d]
    let second ← Decimal.natOfDigits? 16 [e, f, g, h]
    if 0xD800 ≤ first ∧ first < 0xDC00 ∧ 0xDC00 ≤ second ∧ second < 0xE000 then
      let (pieces, rest) ← readString rest
      let code := 0x10000 + (first - 0xD800) * 0x400 + (second - 0xDC00)
      some (some (Char.ofNat code) :: pieces, rest)
    else
      let (pieces, rest) ← readString ('\\' :: 'u' :: e :: f :: g :: h :: rest)
      let piece := if 0xD800 ≤ first ∧ first < 0xE000 then none else some (Char.ofNat first)
      some (piece :: pieces, rest)
  | '\\' :: 'u' :: a :: b :: c :: d :: rest => do
    let code ← Decimal.natOfDigits? 16 [a, b, c, d]
    let (pieces, rest) ← readString rest
    let piece := if 0xD800 ≤ code ∧ code < 0xE000 then none else some (Char.ofNat code)
    some (piece :: pieces, rest)
  | '\\' :: c :: rest => do
    let escaped ← simpleEscape? c
    let (pieces, rest) ← readString rest
    some (some escaped :: pieces, rest)
  | c :: rest =>
    if c.toNat < 32 then none
    else (readString rest).map fun (pieces, rest) => (some c :: pieces, rest)

/-- A number: a sign, a whole part without needless zeros, and an optional fraction and exponent. A
number without either is whole, unless it is a negative zero. -/
def readNumber (s : List Char) : Option (Json × List Char) := do
  let (minus, s) := match s with
    | '-' :: rest => (['-'], rest)
    | s => ([], s)
  let whole := s.takeWhile Decimal.isDigit
  let s := s.dropWhile Decimal.isDigit
  let magnitude ← Decimal.natOfDigits? 10 whole
  if whole.length > 1 ∧ whole.head? = some '0' then none
  let (fraction, s) ← match s with
    | '.' :: rest =>
      let digits := rest.takeWhile Decimal.isDigit
      if digits.isEmpty then none else some ('.' :: digits, rest.dropWhile Decimal.isDigit)
    | s => some ([], s)
  let (exponent, s) ← match s with
    | e :: rest =>
      if e = 'e' ∨ e = 'E' then
        let (mark, rest) := match rest with
          | '+' :: rest => (['+'], rest)
          | '-' :: rest => (['-'], rest)
          | rest => ([], rest)
        let digits := rest.takeWhile Decimal.isDigit
        if digits.isEmpty then none
        else some (e :: mark ++ digits, rest.dropWhile Decimal.isDigit)
      else some ([], s)
    | [] => some ([], [])
  if fraction.isEmpty ∧ exponent.isEmpty ∧ (minus.isEmpty ∨ magnitude ≠ 0) then
    some (.integer (if minus.isEmpty then magnitude else -(magnitude : Int)), s)
  else some (.real (String.ofList (minus ++ whole ++ fraction ++ exponent)), s)

/-- The rest of a text after a given word. -/
def afterWord (word : String) (s : List Char) : Option (List Char) :=
  if word.toList.isPrefixOf s then some (s.drop word.length) else none

/-- An object from its fields; a key with an unpaired surrogate makes it unreadable. -/
def ofFields (fields : List (Option String × Json)) : Json :=
  match fields.mapM fun (key, value) => key.map (·, value) with
  | some fields => .object fields
  | none => .unreadable

mutual

/-- A value, after blanks. Every nested value costs one unit of `fuel`. -/
def readValue : Nat → List Char → Option (Json × List Char)
  | 0, _ => none
  | fuel + 1, s =>
    match skip s with
    | '\x7b' :: rest =>
      match skip rest with
      | '\x7d' :: rest => some (.object [], rest)
      | rest => (readFields fuel rest).map fun (fields, rest) => (ofFields fields, rest)
    | '[' :: rest =>
      match skip rest with
      | ']' :: rest => some (.array [], rest)
      | rest => (readItems fuel rest).map fun (items, rest) => (.array items, rest)
    | '"' :: rest => (readString rest).map fun (pieces, rest) =>
      (match ofPieces pieces with
        | some s => .string s
        | none => .unreadable, rest)
    | 't' :: rest => (afterWord "rue" rest).map (.bool true, ·)
    | 'f' :: rest => (afterWord "alse" rest).map (.bool false, ·)
    | 'n' :: rest => (afterWord "ull" rest).map (.null, ·)
    | rest => readNumber rest

/-- The items of an array that is not empty, up to its closing bracket. -/
def readItems : Nat → List Char → Option (List Json × List Char)
  | 0, _ => none
  | fuel + 1, s => do
    let (item, s) ← readValue fuel s
    match skip s with
    | ',' :: rest =>
      let (items, rest) ← readItems fuel rest
      some (item :: items, rest)
    | ']' :: rest => some ([item], rest)
    | _ => none

/-- The fields of an object that is not empty, up to its closing brace. -/
def readFields : Nat → List Char → Option (List (Option String × Json) × List Char)
  | 0, _ => none
  | fuel + 1, s =>
    match skip s with
    | '"' :: s => do
      let (pieces, s) ← readString s
      match skip s with
      | ':' :: s =>
        let (value, s) ← readValue fuel s
        let field := (ofPieces pieces, value)
        match skip s with
        | ',' :: rest =>
          let (fields, rest) ← readFields fuel rest
          some (field :: fields, rest)
        | '\x7d' :: rest => some ([field], rest)
        | _ => none
      | _ => none
    | _ => none

end

/-- **The document that a text writes.** Every item and every field takes at least one character, so
the length of the text bounds the depth of the reading. -/
def parse (text : String) : Option Json :=
  let s := text.toList
  match readValue (2 * s.length + 1) s with
  | some (value, rest) => if (skip rest).isEmpty then some value else none
  | none => none

end WireCost.Json
