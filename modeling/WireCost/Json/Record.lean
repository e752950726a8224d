import WireCost.Json.Basic
import WireCost.Word

/-! # Reading typed values from JSON

* **`Json.int32?`, `Json.uint64?`, …** — scalar values; whole numbers have to be in range and
  written without fraction.
* **`Json.choice?`** — one of several names.
* **`Record`** — the known fields of a value with named fields. Unknown fields are skipped, a known
  one must not be repeated, and the values may also be listed in the order of the fields. -/

namespace WireCost

namespace Json

/-! ## Scalars and lists -/

/-- A truth value. -/
def bool? : Json → Option Bool
  | .bool b => some b
  | _ => none

/-- A string. -/
def string? : Json → Option String
  | .string s => some s
  | _ => none

/-- A whole number. -/
def int? : Json → Option Int
  | .integer n => some n
  | _ => none

/-- A whole number from zero up to, but not including, `size`. -/
def natBelow? (size : Nat) (j : Json) : Option Nat := do
  let n ← j.int?
  if 0 ≤ n ∧ n < size then some n.toNat else none

/-- A signed word of 32 bits. -/
def int32? (j : Json) : Option Int32 := do
  let n ← j.int?
  if Word.IsInt32 n then some (Int32.ofInt n) else none

/-- An unsigned word of 16 bits. -/
def uint16? (j : Json) : Option UInt16 := (j.natBelow? Word.size16).map UInt16.ofNat

/-- An unsigned word of 32 bits. -/
def uint32? (j : Json) : Option UInt32 := (j.natBelow? Word.size32).map UInt32.ofNat

/-- An unsigned word of 64 bits. -/
def uint64? (j : Json) : Option UInt64 := (j.natBelow? Word.size64).map UInt64.ofNat

/-- A list whose items are read by `read`. -/
def list? {α : Type} (read : Json → Option α) : Json → Option (List α)
  | .array items => items.mapM read
  | _ => none

/-- A value or `null`. -/
def nullable? {α : Type} (read : Json → Option α) : Json → Option (Option α)
  | .null => some none
  | j => (read j).map some

/-- One of several names, as a string or as the only key of an object that holds `null`. -/
def choice? {α : Type} (cases : List (String × α)) : Json → Option α
  | .string s => cases.lookup s
  | .object [(s, .null)] => cases.lookup s
  | _ => none

end Json

/-! ## Records -/

/-- The known fields of a value with named fields. -/
structure Record where
  /-- Whether the values were listed without their names. -/
  listed : Bool
  fields : List (String × Json)

namespace Record

/-- The fields of a value, of which only `names` are known. -/
def ofJson? (names : List String) : Json → Option Record
  | .object fields =>
    let known := fields.filter fun field => names.contains field.1
    if (known.map (·.1)).Nodup then some ⟨false, known⟩ else none
  | .array items => if items.length ≤ names.length then some ⟨true, names.zip items⟩ else none
  | _ => none

variable {α : Type}

/-- A field that has to be there. -/
def required (r : Record) (name : String) (read : Json → Option α) : Option α :=
  (r.fields.lookup name).bind read

/-- A field that falls back to `value`. -/
def withDefault (r : Record) (name : String) (value : α) (read : Json → Option α) : Option α :=
  match r.fields.lookup name with
  | some j => read j
  | none => some value

/-- A field that may be `null`, and may be missing where fields have names. -/
def nullable (r : Record) (name : String) (read : Json → Option α) : Option (Option α) :=
  match r.fields.lookup name with
  | some j => j.nullable? read
  | none => if r.listed then none else some none

end Record

end WireCost
