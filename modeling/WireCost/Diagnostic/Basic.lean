/-! # Diagnostics

A diagnostic is a message about a run with a severity, a code, and optionally a subject, notes and
help lines.

* **`Severity`** — note, warning or error, in this order.
* **`Code`** — a category letter with a number.
* **`Diagnostic`** — the message; `Diagnostic.note`, `.warning` and `.error` start one, `.about`,
  `.noting` and `.advising` add to it. -/

namespace WireCost

/-- How serious a diagnostic is. -/
inductive Severity where
  /-- Cost reports and choices made. -/
  | note
  /-- A degenerate input that the engine works around. -/
  | warning
  /-- A cost that drifted or a check that failed. -/
  | error
deriving DecidableEq, Repr, Inhabited

namespace Severity

/-- The place of a severity in the order from least to most serious. -/
def rank : Severity → Nat
  | .note => 0
  | .warning => 1
  | .error => 2

/-- The name of a severity. -/
def label : Severity → String
  | .note => "note"
  | .warning => "warning"
  | .error => "error"

/-- Whether a severity makes a run fail. -/
def isError (s : Severity) : Bool := s == .error

/-- The more serious of two severities. -/
def max (s t : Severity) : Severity := if s.rank ≤ t.rank then t else s

/-- The most serious of several severities. -/
def worst? : List Severity → Option Severity
  | [] => none
  | s :: rest => some (rest.foldl max s)

/-- All severities. -/
def all : List Severity := [.note, .warning, .error]

end Severity

/-- What a code is about. -/
inductive Category where
  | error
  | warning
  | note
deriving DecidableEq, Repr, Inhabited

namespace Category

/-- The letter that codes of a category begin with. -/
def letter : Category → Char
  | .error => 'E'
  | .warning => 'W'
  | .note => 'N'

/-- The name of a category. -/
def name : Category → String
  | .error => "Error"
  | .warning => "Warning"
  | .note => "Note"

/-- All categories. -/
def all : List Category := [.error, .warning, .note]

end Category

/-- The code that identifies a kind of diagnostic. -/
structure Code where
  category : Category
  number : UInt16
deriving DecidableEq, Repr, Inhabited

namespace Code

/-- A span of channels has no tracks. -/
def bareSpan : Code := ⟨.warning, 101⟩

/-- The wirelength estimate. -/
def wirelength : Code := ⟨.note, 201⟩

/-- The box form in use. -/
def boxForm : Code := ⟨.note, 202⟩

/-- The tracked box cost differs from a recomputation. -/
def boxDrift : Code := ⟨.error, 301⟩

/-- The tracked timing cost differs from a recomputation. -/
def timingDrift : Code := ⟨.error, 302⟩

/-- A committed box or cost differs from a rebuild. -/
def mismatch : Code := ⟨.error, 303⟩

/-- A code as it is shown: its letter and at least three digits. -/
def toText (c : Code) : String :=
  let digits := toString c.number.toNat
  String.singleton c.category.letter ++
    String.ofList (List.replicate (3 - digits.length) '0') ++ digits

end Code

/-- A message about a run. -/
structure Diagnostic where
  severity : Severity
  code : Code
  message : String
  /-- What the message is about, if anything more specific than the run. -/
  subject : Option String
  notes : List String
  help : List String
deriving DecidableEq, Repr, Inhabited

namespace Diagnostic

/-- A diagnostic without subject, notes and help. -/
def plain (severity : Severity) (code : Code) (message : String) : Diagnostic :=
  ⟨severity, code, message, none, [], []⟩

/-- An informational diagnostic. -/
def note (code : Code) (message : String) : Diagnostic := plain .note code message

/-- A warning. -/
def warning (code : Code) (message : String) : Diagnostic := plain .warning code message

/-- An error. -/
def error (code : Code) (message : String) : Diagnostic := plain .error code message

/-- Says what a diagnostic is about. -/
def about (d : Diagnostic) (subject : String) : Diagnostic := { d with subject := some subject }

/-- Adds a note. -/
def noting (d : Diagnostic) (note : String) : Diagnostic := { d with notes := d.notes ++ [note] }

/-- Adds a help line. -/
def advising (d : Diagnostic) (line : String) : Diagnostic := { d with help := d.help ++ [line] }

end Diagnostic

end WireCost
