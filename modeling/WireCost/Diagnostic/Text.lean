import WireCost.Diagnostic.Basic

/-! # Diagnostics for a terminal

* **`Diagnostic.render`** — a header line, then a line for the subject and one for every note and
  help text; the header may be coloured by severity. -/

namespace WireCost

/-- The terminal code that starts the colour of a severity. -/
def Severity.style : Severity → String
  | .note => "\x1b[1;36m"
  | .warning => "\x1b[1;33m"
  | .error => "\x1b[1;31m"

/-- The header of a diagnostic: severity and code. -/
def Diagnostic.header (d : Diagnostic) (colour : Bool) : String :=
  let text := d.severity.label ++ "[" ++ d.code.toText ++ "]"
  if colour then d.severity.style ++ text ++ "\x1b[0m" else text

/-- **A diagnostic for a terminal,** every line ended. -/
def Diagnostic.render (d : Diagnostic) (colour : Bool) : String :=
  d.header colour ++ ": " ++ d.message ++ "\n" ++
    (match d.subject with
      | some subject => "  --> " ++ subject ++ "\n"
      | none => "") ++
    String.join (d.notes.map fun note => "   = note: " ++ note ++ "\n") ++
    String.join (d.help.map fun line => "   = help: " ++ line ++ "\n")

end WireCost
