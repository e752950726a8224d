/-! # TOML values

* **`Toml`** — a TOML document or one of its values. Dates and times are kept without their meaning.
* **`Fields`** — a table that is still being read. It remembers how each table came about, because
  that decides whether it may be extended.
* **`Fields.insert`**, **`Fields.openTable`**, **`Fields.openItem`** — what a key, a table header
  and an array header do to such a table; each refuses what is defined already. -/

namespace WireCost

/-- A TOML value. -/
inductive Toml where
  | string (value : String)
  | integer (value : Int)
  | float (value : Float)
  | boolean (value : Bool)
  | datetime
  | array (items : List Toml)
  | table (fields : List (String × Toml))
deriving Repr, Inhabited

namespace Toml

/-- How a table came about. -/
inductive Origin where
  /-- By a header of its own. -/
  | header
  /-- As part of the path of a header. -/
  | path
  /-- As part of a dotted key. -/
  | dotted
deriving DecidableEq, Repr, Inhabited

/-- A part of a document that is still being read. -/
inductive Node where
  | value (value : Toml)
  | table (origin : Origin) (fields : List (String × Node))
  /-- An array of tables, the last one first. -/
  | tables (last : List (String × Node)) (before : List (List (String × Node)))
deriving Inhabited

/-- A table that is still being read. -/
abbrev Fields := List (String × Node)

namespace Fields

/-- Adds a key that is not there yet. -/
def put (fields : Fields) (key : String) (node : Node) : Option Fields :=
  if (fields.lookup key).isSome then none else some (fields ++ [(key, node)])

/-- Replaces what a key holds. -/
def replace (fields : Fields) (key : String) (node : Node) : Fields :=
  fields.map fun field => if field.1 == key then (key, node) else field

/-- **Follows the path of a header** and changes the table at its end. Missing tables are created;
an array of tables stands for its last table. -/
def update (change : Fields → Option Fields) : List String → Fields → Option Fields
  | [], fields => change fields
  | key :: path, fields =>
    match fields.lookup key with
    | none => do put fields key (.table .path (← update change path []))
    | some (.table origin inner) => do
      some (replace fields key (.table origin (← update change path inner)))
    | some (.tables last before) => do
      some (replace fields key (.tables (← update change path last) before))
    | some (.value _) => none

/-- What a table header does in the table that its path leads to: it defines a table that only paths
of headers may have led through before. -/
def openTable (key : String) (fields : Fields) : Option Fields :=
  match fields.lookup key with
  | none => put fields key (.table .header [])
  | some (.table .path inner) => some (replace fields key (.table .header inner))
  | some _ => none

/-- What an array header does in the table that its path leads to: it adds a table to an array. -/
def openItem (key : String) (fields : Fields) : Option Fields :=
  match fields.lookup key with
  | none => put fields key (.tables [] [])
  | some (.tables last before) => some (replace fields key (.tables [] (last :: before)))
  | some _ => none

/-- Follows a dotted key; `open_` tells whether the table reached may take a key. -/
def insertBelow (open_ : Bool) (key : String) (value : Toml) :
    List String → Fields → Option Fields
  | [], fields => if open_ then put fields key (.value value) else none
  | first :: path, fields =>
    match fields.lookup first with
    | none => do put fields first (.table .dotted (← insertBelow true key value path []))
    | some (.table .header _) => none
    | some (.table origin inner) => do
      some (replace fields first
        (.table origin (← insertBelow (origin == .dotted) key value path inner)))
    | some (.tables last before) => do
      some (replace fields first (.tables (← insertBelow false key value path last) before))
    | some (.value _) => none

/-- **Defines a key.** The tables of a dotted key must not have a header of their own, and the last
one must have come about by dotted keys alone. -/
def insert (path : List String) (key : String) (value : Toml) (fields : Fields) : Option Fields :=
  insertBelow true key value path fields

end Fields

mutual

/-- The value of a part that has been read. -/
def Node.close : Node → Toml
  | .value v => v
  | .table _ fields => .table (closeFields fields)
  | .tables last before => .array (closeTables before [.table (closeFields last)])

/-- The values of the fields of a table. -/
def closeFields : List (String × Node) → List (String × Toml)
  | [] => []
  | (key, node) :: rest => (key, node.close) :: closeFields rest

/-- The tables of an array, in front of those that follow. -/
def closeTables : List (List (String × Node)) → List Toml → List Toml
  | [], after => after
  | fields :: before, after => closeTables before (.table (closeFields fields) :: after)

end

end Toml

end WireCost
