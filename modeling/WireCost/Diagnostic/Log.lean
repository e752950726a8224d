import WireCost.Diagnostic.Basic

/-! # The log of a run

* **`Log`** — the diagnostics held, in the order in which they were emitted, and the number of
  errors ever emitted. Draining the log empties the former and keeps the latter, so that a run can
  show its diagnostics first and decide its exit status afterwards. -/

namespace WireCost

/-- The diagnostics of a run. -/
structure Log where
  held : List Diagnostic
  /-- How many errors have been emitted since the log was started. -/
  errors : Nat
deriving DecidableEq, Repr, Inhabited

namespace Log

/-- A log without diagnostics. -/
def empty : Log := ⟨[], 0⟩

/-- Records a diagnostic. -/
def emit (l : Log) (d : Diagnostic) : Log where
  held := l.held ++ [d]
  errors := if d.severity.isError then l.errors + 1 else l.errors

/-- Records several diagnostics in turn. -/
def emitAll (l : Log) (ds : List Diagnostic) : Log := ds.foldl emit l

/-- **Drains the log:** the diagnostics held, and the log without them. -/
def drain (l : Log) : List Diagnostic × Log := (l.held, { l with held := [] })

/-- Whether any error has been emitted since the log was started. -/
def hasErrors (l : Log) : Bool := l.errors > 0

/-- How many of the diagnostics held carry a code. -/
def count (l : Log) (code : Code) : Nat := l.held.countP (·.code = code)

end Log

end WireCost
