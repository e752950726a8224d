import WireCost.Decimal.Reading
import WireCost.Toml.Basic
import WireCost.Word

/-! # Strings, numbers and dates of TOML

Every reader takes the characters that are left and returns what it read with the rest.

* **`readString`** — the four kinds of strings.
* **`readInteger`, `readReal`, `readDate`** — numbers, and dates and times, whose fields are checked
  and then dropped.
* **`readKey`** — a dotted key. -/

namespace WireCost.Toml

/-! ## Characters -/

/-- A blank within a line. -/
def isBlank (c : Char) : Bool := c == ' ' || c == '\t'

/-- A character that a comment or a string may hold as it is. -/
def isPlain (c : Char) : Bool := c == '\t' || (32 ≤ c.toNat && c.toNat ≠ 127)

/-- Skips blanks. -/
def skipBlanks (s : List Char) : List Char := s.dropWhile isBlank

/-- The rest after an end of line. -/
def newline? : List Char → Option (List Char)
  | '\n' :: rest => some rest
  | '\r' :: '\n' :: rest => some rest
  | _ => none

/-- Skips blanks and ends of lines. -/
def skipLines : List Char → List Char
  | ' ' :: rest => skipLines rest
  | '\t' :: rest => skipLines rest
  | '\n' :: rest => skipLines rest
  | '\r' :: '\n' :: rest => skipLines rest
  | s => s

/-! ## Strings -/

/-- The character that a number of hexadecimal digits stands for. -/
def readCode (count : Nat) (s : List Char) : Option (Char × List Char) := do
  let digits := s.take count
  if digits.length ≠ count then none
  let code ← Decimal.natOfDigits? 16 digits
  if code < 0xD800 ∨ (0xE000 ≤ code ∧ code < 0x110000) then some (Char.ofNat code, s.drop count)
  else none

/-- What follows a backslash. -/
def readEscape : List Char → Option (Char × List Char)
  | 'b' :: rest => some ('\x08', rest)
  | 't' :: rest => some ('\t', rest)
  | 'n' :: rest => some ('\n', rest)
  | 'f' :: rest => some ('\x0c', rest)
  | 'r' :: rest => some ('\r', rest)
  | '"' :: rest => some ('"', rest)
  | '\\' :: rest => some ('\\', rest)
  | 'u' :: rest => readCode 4 rest
  | 'U' :: rest => readCode 8 rest
  | _ => none

/-- The rest of a one-line string in double quotes. Every step takes a unit of `fuel`. -/
def readBasic : Nat → List Char → Option (List Char × List Char)
  | 0, _ => none
  | _, [] => none
  | _ + 1, '"' :: rest => some ([], rest)
  | fuel + 1, '\\' :: rest => do
    let (c, rest) ← readEscape rest
    let (cs, rest) ← readBasic fuel rest
    some (c :: cs, rest)
  | fuel + 1, c :: rest =>
    if isPlain c then (readBasic fuel rest).map fun (cs, rest) => (c :: cs, rest) else none

/-- The rest of a one-line string in single quotes. -/
def readLiteral (s : List Char) : Option (List Char × List Char) :=
  let body := s.takeWhile fun c => isPlain c && c ≠ '\''
  match s.drop body.length with
  | '\'' :: rest => some (body, rest)
  | _ => none

/-- The rest of a string over several lines between triples of `quote`. Up to two more quotes may
stand before the closing triple. Only double quotes know escapes, of which one skips a line end with
the blanks around it. -/
def readLong (quote : Char) : Nat → List Char → Option (List Char × List Char)
  | 0, _ => none
  | _, [] => none
  | fuel + 1, c :: rest =>
    if c == quote then
      let more := (rest.takeWhile (· == quote)).length
      if more < 2 then
        (readLong quote fuel (rest.drop more)).map fun (cs, rest) =>
          (List.replicate (more + 1) quote ++ cs, rest)
      else
        let inside := min (more - 2) 2
        some (List.replicate inside quote, rest.drop (inside + 2))
    else if c == '\\' && quote == '"' then
      match newline? (skipBlanks rest) with
      | some rest => readLong quote fuel (skipLines rest)
      | none => do
        let (c, rest) ← readEscape rest
        let (cs, rest) ← readLong quote fuel rest
        some (c :: cs, rest)
    else
      match newline? (c :: rest) with
      | some rest => (readLong quote fuel rest).map fun (cs, rest) => ('\n' :: cs, rest)
      | none =>
        if isPlain c then (readLong quote fuel rest).map fun (cs, rest) => (c :: cs, rest)
        else none

/-- A string over several lines; a line end right behind the opening quotes is skipped. -/
def readLongBody (quote : Char) (s : List Char) : Option (List Char × List Char) :=
  let body := (newline? s).getD s
  readLong quote (body.length + 1) body

/-- A string on one line, as keys and values may have it. -/
def readShortString : List Char → Option (String × List Char)
  | '"' :: rest => (readBasic (rest.length + 1) rest).map fun (cs, rest) => (String.ofList cs, rest)
  | '\'' :: rest => (readLiteral rest).map fun (cs, rest) => (String.ofList cs, rest)
  | _ => none

/-- **A string.** -/
def readString : List Char → Option (String × List Char)
  | '"' :: '"' :: '"' :: rest =>
    (readLongBody '"' rest).map fun (cs, rest) => (String.ofList cs, rest)
  | '\'' :: '\'' :: '\'' :: rest =>
    (readLongBody '\'' rest).map fun (cs, rest) => (String.ofList cs, rest)
  | s => readShortString s

/-! ## Numbers -/

/-- Digits of a base, single underscores between them allowed; the underscores are dropped. -/
def readDigits (base : Nat) : List Char → Option (List Char × List Char)
  | [] => none
  | [c] => if (Decimal.digitValue? base c).isSome then some ([c], []) else none
  | c :: d :: rest =>
    if (Decimal.digitValue? base c).isNone then none
    else if d == '_' then (readDigits base rest).map fun (cs, rest) => (c :: cs, rest)
    else if (Decimal.digitValue? base d).isSome then
      (readDigits base (d :: rest)).map fun (cs, rest) => (c :: cs, rest)
    else some ([c], d :: rest)

/-- An optional sign. -/
def readSign : List Char → List Char × List Char
  | '+' :: rest => ([], rest)
  | '-' :: rest => (['-'], rest)
  | rest => ([], rest)

/-- A decimal whole number without needless zeros: its sign and digits. -/
def readDecimal (s : List Char) : Option (List Char × List Char) :=
  let (minus, s) := readSign s
  match s with
  | '0' :: rest => some (minus ++ ['0'], rest)
  | s => (readDigits 10 s).map fun (cs, rest) => (minus ++ cs, rest)

/-- A fraction with its point. -/
def readFraction : List Char → Option (List Char × List Char)
  | '.' :: rest => (readDigits 10 rest).map fun (cs, rest) => ('.' :: cs, rest)
  | _ => none

/-- An exponent with its mark. -/
def readExponent : List Char → Option (List Char × List Char)
  | c :: rest =>
    if c == 'e' || c == 'E' then
      let (minus, rest) := readSign rest
      (readDigits 10 rest).map fun (cs, rest) => ('e' :: minus ++ cs, rest)
    else none
  | [] => none

/-- Whether a fraction or an exponent begins. -/
def startsTail : List Char → Bool
  | c :: _ => c == '.' || c == 'e' || c == 'E'
  | [] => false

/-- A number with a fraction or an exponent. One that is too large for a double is refused, unless
it is negative, when it stands for infinity. -/
def readReal (s : List Char) : Option (Float × List Char) := do
  let (whole, s) ← readDecimal s
  let (fraction, s) ← match s with
    | '.' :: _ => readFraction s
    | s => some ([], s)
  let (exponent, s) ←
    if startsTail s then readExponent s
    else if fraction.isEmpty then none
    else some ([], s)
  let value ← Decimal.ofText? (whole ++ fraction ++ exponent)
  if value == 1.0 / 0.0 then none else some (value, s)

/-- A number that is written as a word. -/
def readSpecial (s : List Char) : Option (Float × List Char) :=
  let (minus, s) := readSign s
  match s with
  | 'i' :: 'n' :: 'f' :: rest => some (if minus.isEmpty then 1.0 / 0.0 else -1.0 / 0.0, rest)
  | 'n' :: 'a' :: 'n' :: rest => some (0.0 / 0.0, rest)
  | _ => none

/-- A whole number in a base that is written as `mark`. -/
def baseOf : Char → Option Nat
  | 'x' => some 16
  | 'o' => some 8
  | 'b' => some 2
  | _ => none

/-- **A whole number,** which has to be a signed word of 64 bits. -/
def readInteger (s : List Char) : Option (Int × List Char) := do
  let (value, rest) ←
    match s with
    | '0' :: mark :: digits =>
      match baseOf mark with
      | some base => do
        let (cs, rest) ← readDigits base digits
        some (Int.ofNat (← Decimal.natOfDigits? base cs), rest)
      | none => some (0, mark :: digits)
    | s => do
      let (cs, rest) ← readDecimal s
      some (← Decimal.intOfText? cs, rest)
  if Word.IsInt64 value then some (value, rest) else none

/-! ## Dates and times -/

/-- A number of exactly `count` digits between `low` and `high`. -/
def readField (count low high : Nat) (s : List Char) : Option (Nat × List Char) := do
  let digits := s.take count
  if digits.length ≠ count then none
  let n ← Decimal.natOfDigits? 10 digits
  if low ≤ n ∧ n ≤ high then some (n, s.drop count) else none

/-- The rest after a given character. -/
def after (c : Char) : List Char → Option (List Char)
  | d :: rest => if c == d then some rest else none
  | [] => none

/-- The days of a month. -/
def daysIn (year month : Nat) : Nat :=
  if month = 2 then
    if (year % 4 = 0 ∧ year % 100 ≠ 0) ∨ year % 400 = 0 then 29 else 28
  else if month ∈ [4, 6, 9, 11] then 30
  else 31

/-- A date. -/
def readDay (s : List Char) : Option (List Char) := do
  let (year, s) ← readField 4 0 9999 s
  let (month, s) ← readField 2 1 12 (← after '-' s)
  let (_, s) ← readField 2 1 (daysIn year month) (← after '-' s)
  some s

/-- A time of day, with an optional fraction of a second. -/
def readTime (s : List Char) : Option (List Char) := do
  let (_, s) ← readField 2 0 23 s
  let (_, s) ← readField 2 0 59 (← after ':' s)
  let (_, s) ← readField 2 0 60 (← after ':' s)
  match s with
  | '.' :: rest =>
    let digits := rest.takeWhile Decimal.isDigit
    if digits.isEmpty then some s else some (rest.drop digits.length)
  | s => some s

/-- The offset of a time from universal time, if there is one. -/
def readZone (s : List Char) : Option (List Char) :=
  match s with
  | 'Z' :: rest => some rest
  | 'z' :: rest => some rest
  | c :: rest =>
    if c == '+' || c == '-' then do
      let (_, rest) ← readField 2 0 23 rest
      let (_, rest) ← readField 2 0 59 (← after ':' rest)
      some rest
    else some s
  | [] => some []

/-- **A date, a time or both.** A blank or a letter may stand between date and time; without a time
behind it, it is not part of the date. -/
def readDate (s : List Char) : Option (List Char) :=
  match readDay s with
  | none => readTime s
  | some rest =>
    match rest with
    | c :: time =>
      if c == 'T' || c == 't' || c == ' ' then
        match readTime time with
        | some rest => readZone rest
        | none => some rest
      else some rest
    | [] => some []

/-- Whether a date or a time begins: four digits and a hyphen, or two digits and a colon. -/
def startsDate : List Char → Bool
  | a :: b :: ':' :: _ => Decimal.isDigit a && Decimal.isDigit b
  | a :: b :: c :: d :: '-' :: _ => [a, b, c, d].all Decimal.isDigit
  | _ => false

/-! ## Keys -/

/-- A character of a key without quotes. -/
def isBare (c : Char) : Bool := c.isAlphanum || c == '_' || c == '-'

/-- One part of a dotted key, with the blanks around it. -/
def readKeyPart (s : List Char) : Option (String × List Char) := do
  let s := skipBlanks s
  let (key, s) ← match s with
    | c :: _ =>
      if c == '"' || c == '\'' then readShortString s
      else
        let bare := s.takeWhile isBare
        if bare.isEmpty then none else some (String.ofList bare, s.drop bare.length)
    | [] => none
  some (key, skipBlanks s)

/-- The parts of a dotted key; every part takes a unit of `fuel`. -/
def readKeyParts : Nat → List Char → Option (List String × List Char)
  | 0, _ => none
  | fuel + 1, s => do
    let (key, s) ← readKeyPart s
    match s with
    | '.' :: rest => (readKeyParts fuel rest).map fun (keys, rest) => (key :: keys, rest)
    | s => some ([key], s)

/-- The deepest nesting of values, and the longest dotted key, plus one. -/
def depthLimit : Nat := 80

/-- **A dotted key:** the path of tables and the last part. -/
def readKey (s : List Char) : Option ((List String × String) × List Char) := do
  let (keys, rest) ← readKeyParts (s.length + 1) s
  if keys.length < depthLimit then
    let last ← keys.getLast?
    some ((keys.dropLast, last), rest)
  else none

end WireCost.Toml
