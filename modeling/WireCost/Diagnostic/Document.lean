import WireCost.Diagnostic.Basic
import WireCost.Json.Record

/-! # Diagnostics as JSON

* **`Diagnostic.toJson`** writes a diagnostic, **`Diagnostic.ofJson?`** reads one. -/

namespace WireCost

/-- A code as a JSON value. -/
def Code.toJson (c : Code) : Json :=
  .object [("category", .string c.category.name), ("number", .nat c.number.toNat)]

/-- The code that a JSON value holds. -/
def Code.ofJson? (j : Json) : Option Code := do
  let r ← Record.ofJson? ["category", "number"] j
  let category ← r.required "category" (Json.choice? (Category.all.map fun c => (c.name, c)))
  let number ← r.required "number" Json.uint16?
  some ⟨category, number⟩

/-- A severity as a JSON value. -/
def Severity.toJson (s : Severity) : Json := .string s.label

/-- The severity that a JSON value names. -/
def Severity.ofJson? : Json → Option Severity :=
  Json.choice? (Severity.all.map fun s => (s.label, s))

/-- A diagnostic as a JSON value. -/
def Diagnostic.toJson (d : Diagnostic) : Json :=
  .object
    [("severity", d.severity.toJson), ("code", d.code.toJson), ("message", .string d.message),
      ("subject", Json.ofOption .string d.subject), ("notes", .array (d.notes.map .string)),
      ("help", .array (d.help.map .string))]

/-- The diagnostic that a JSON value holds. -/
def Diagnostic.ofJson? (j : Json) : Option Diagnostic := do
  let r ← Record.ofJson? ["severity", "code", "message", "subject", "notes", "help"] j
  let severity ← r.required "severity" Severity.ofJson?
  let code ← r.required "code" Code.ofJson?
  let message ← r.required "message" Json.string?
  let subject ← r.nullable "subject" Json.string?
  let notes ← r.required "notes" (Json.list? Json.string?)
  let help ← r.required "help" (Json.list? Json.string?)
  some ⟨severity, code, message, subject, notes, help⟩

end WireCost
