/-! # JSON values

* **`Json`** — a JSON document; a number keeps the way it was written, because whole numbers and
  numbers with a fraction are read by different rules.
* **`Json.unreadable`** — stands for a string, or an object with a key, that escapes half of a
  surrogate pair: well-formed as text, but no string holds it. -/

namespace WireCost

/-- A JSON value. -/
inductive Json where
  | null
  | bool (value : Bool)
  /-- A number written without fraction and exponent. -/
  | integer (value : Int)
  /-- A number written with a fraction or an exponent, as it is written. -/
  | real (text : String)
  | string (value : String)
  | array (items : List Json)
  /-- An object, its fields in the order in which they are written, repeated keys included. -/
  | object (fields : List (String × Json))
  /-- Text with an unpaired surrogate, which no string holds. -/
  | unreadable
deriving Repr, Inhabited

namespace Json

/-- A natural number as a JSON value. -/
def nat (n : Nat) : Json := .integer n

/-- A value or `null`. -/
def ofOption {α : Type} (f : α → Json) : Option α → Json
  | none => .null
  | some a => f a

end Json

end WireCost
