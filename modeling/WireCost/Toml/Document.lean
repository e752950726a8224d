import WireCost.Toml.Scalar

/-! # Reading TOML documents

* **`Toml.readValue`** — a value of any kind, arrays and inline tables included.
* **`Toml.parse`** — the table that a document writes: its lines one by one, each a key with its
  value, a table header, or blank. -/

namespace WireCost.Toml

/-! ## Values -/

/-- Skips a comment, if one begins. -/
def skipComment : List Char → List Char
  | '#' :: rest => rest.dropWhile isPlain
  | s => s

/-- Skips blanks, comments and ends of lines; every comment takes a unit of `fuel`. -/
def skipFiller : Nat → List Char → List Char
  | 0, s => s
  | fuel + 1, s =>
    match skipLines s with
    | '#' :: rest => skipFiller fuel (rest.dropWhile isPlain)
    | s => s

/-- A value without parts. -/
def readScalar (s : List Char) : Option (Toml × List Char) :=
  match s with
  | [] => none
  | c :: _ =>
    if c == '"' || c == '\'' then (readString s).map fun (v, rest) => (.string v, rest)
    else if "true".toList.isPrefixOf s then some (.boolean true, s.drop 4)
    else if "false".toList.isPrefixOf s then some (.boolean false, s.drop 5)
    else if startsDate s then (readDate s).map (.datetime, ·)
    else
      match readSpecial s with
      | some (v, rest) => some (.float v, rest)
      | none =>
        match readDecimal s with
        | some (_, tail) =>
          if startsTail tail then (readReal s).map fun (v, rest) => (.float v, rest)
          else (readInteger s).map fun (v, rest) => (.integer v, rest)
        | none => none

mutual

/-- A value nested `depth` levels deep. Every value and every item takes a unit of `fuel`. -/
def readValue : Nat → Nat → List Char → Option (Toml × List Char)
  | 0, _, _ => none
  | fuel + 1, depth, '[' :: rest => do
    if depth + 1 ≥ depthLimit then none
    let (items, rest) ← readItems fuel (depth + 1) rest
    some (.array items, rest)
  | fuel + 1, depth, '\x7b' :: rest => do
    if depth + 1 ≥ depthLimit then none
    match skipBlanks rest with
    | '\x7d' :: rest => some (.table [], rest)
    | rest =>
      let (fields, rest) ← readEntries fuel (depth + 1) rest []
      some (.table (closeFields fields), rest)
  | _ + 1, _, s => readScalar s

/-- The items of an array up to its closing bracket; a comma may stand behind the last one. -/
def readItems : Nat → Nat → List Char → Option (List Toml × List Char)
  | 0, _, _ => none
  | fuel + 1, depth, s =>
    match skipFiller (s.length + 1) s with
    | ']' :: rest => some ([], rest)
    | s => do
      let (item, s) ← readValue fuel depth s
      match skipFiller (s.length + 1) s with
      | ',' :: rest => (readItems fuel depth rest).map fun (items, rest) => (item :: items, rest)
      | ']' :: rest => some ([item], rest)
      | _ => none

/-- The keys and values of an inline table up to its closing brace. -/
def readEntries : Nat → Nat → List Char → Fields → Option (Fields × List Char)
  | 0, _, _, _ => none
  | fuel + 1, depth, s, fields => do
    let ((path, key), s) ← readKey s
    let (value, s) ← readValue fuel depth (skipBlanks (← after '=' s))
    let fields ← fields.insert path key value
    match skipBlanks s with
    | ',' :: rest => readEntries fuel depth rest fields
    | '\x7d' :: rest => some (fields, rest)
    | _ => none

end

/-! ## Lines -/

/-- The rest after the end of a line, before which blanks and a comment may stand. -/
def endLine (s : List Char) : Option (List Char) :=
  let s := skipComment (skipBlanks s)
  if s.isEmpty then some [] else newline? s

/-- A document of which some lines have been read: its root table and the path of the table that the
next keys belong to. -/
structure Progress where
  root : Fields
  path : List String

/-- Reads one line that is not blank. -/
def readLine (p : Progress) (s : List Char) : Option (Progress × List Char) := do
  match s with
  | '[' :: '[' :: rest =>
    let ((path, key), rest) ← readKey rest
    let rest ← endLine (← after ']' (← after ']' rest))
    some (⟨← p.root.update (Fields.openItem key) path, path ++ [key]⟩, rest)
  | '[' :: rest =>
    let ((path, key), rest) ← readKey rest
    let rest ← endLine (← after ']' rest)
    some (⟨← p.root.update (Fields.openTable key) path, path ++ [key]⟩, rest)
  | s =>
    let ((path, key), s) ← readKey s
    let s := skipBlanks (← after '=' s)
    let (value, s) ← readValue (2 * s.length + 1) 0 s
    let rest ← endLine s
    some (⟨← p.root.update (Fields.insert path key value) p.path, p.path⟩, rest)

/-- Reads lines until the text ends; every line takes a unit of `fuel`. -/
def readLines : Nat → Progress → List Char → Option Progress
  | 0, _, _ => none
  | fuel + 1, p, s =>
    match skipBlanks s with
    | [] => some p
    | '#' :: rest => do readLines fuel p (← endLine ('#' :: rest))
    | '\n' :: rest => readLines fuel p rest
    | '\r' :: '\n' :: rest => readLines fuel p rest
    | s => do
      let (p, rest) ← readLine p s
      readLines fuel p rest

/-- **The table that a document writes,** after an optional byte order mark. -/
def parse (text : String) : Option (List (String × Toml)) := do
  let s := match text.toList with
    | '\ufeff' :: rest => rest
    | s => s
  let p ← readLines (s.length + 1) ⟨[], []⟩ s
  some (closeFields p.root)

end WireCost.Toml
