import WireCost.EdgeBox.Basic
import WireCost.Word

/-! # Faults

A computation stops with a fault when a caller breaks a rule or a machine word runs over. A fault is
a defect of the caller or of the data, never an expected answer.

* **`Fault`** — the causes, each with what it is about.
* **`Checked`** — a computation that may stop with a fault.
* **`Word.int32`, `Word.nat32`, `Word.nat64`** — results that have to fit a machine word.
* **`Word.requireRoom`** — tables that have to fit an address space. -/

namespace WireCost

/-- Why a computation stops. -/
inductive Fault where
  /-- A result does not fit its machine word. -/
  | overflow
  /-- A table does not fit the address space. -/
  | tableTooLarge
  /-- A table has no entry at the position asked for. -/
  | outOfRange
  /-- A clamp or a random draw is asked for a value of an empty range. -/
  | emptyRange
  /-- A second driver is connected to a net. -/
  | duplicateDriver (net : String)
  /-- The driver of a net is asked for, and it has none. -/
  | noDriver (net : String)
  /-- A block is listed twice in one move. -/
  | repeatedBlock (block : Nat)
  /-- A pin lies on a layer that the device does not have. -/
  | layerOffDevice (layer : Int)
  /-- A factor is asked for a span of channels that the device does not have. -/
  | spanOutOfTable (high low : Nat)
  /-- A move is evaluated while another one is pending. -/
  | evaluateWhilePending
  /-- A commit is asked for without a pending move. -/
  | commitWithoutMove
  /-- A rollback is asked for without a pending move. -/
  | rollbackWithoutMove
  /-- All boxes are to be rebuilt during a pending move. -/
  | rebuildWhilePending
  /-- All connections are to be timed again during a pending move. -/
  | retimeWhilePending
  /-- The netlist does not have the number of nets that the engine was built for. -/
  | netlistResized
  /-- A block of the move under evaluation does not sit at its new location. -/
  | blockNotMoved (block : Nat)
  /-- A proposed box leaves the interior of the device. -/
  | boxOutsideInterior (net : Nat) (box : EdgeBox)
  /-- A proposed box has an edge without pins. -/
  | boxWithBareEdge (net : Nat) (box : EdgeBox)
  /-- A proposed sink count is negative. -/
  | negativeSinkCount (net : Nat)
deriving DecidableEq, Repr

/-- What is said about a fault; overflows, large tables and bad positions are not commented. -/
def Fault.message? : Fault → Option String
  | .overflow | .tableTooLarge | .outOfRange | .emptyRange => none
  | .duplicateDriver net => some s!"net {net} already has a driver"
  | .noDriver net => some s!"net {net} has no driver"
  | .repeatedBlock block => some s!"block {block} appears twice in one move"
  | .layerOffDevice layer => some s!"pin layer {layer} outside device"
  | .spanOutOfTable high low => some s!"span [{low}, {high}] out of table"
  | .evaluateWhilePending => some "evaluate called while a move is pending"
  | .commitWithoutMove => some "commit called without a pending move"
  | .rollbackWithoutMove => some "rollback called without a pending move"
  | .rebuildWhilePending => some "full cost computation during a pending move"
  | .retimeWhilePending => some "timing recomputation during a pending move"
  | .netlistResized => some "netlist changed size since the engine was built"
  | .blockNotMoved block => some s!"block {block} must be relocated before evaluation"
  | .boxOutsideInterior net box => some s!"net {net} box {box.toText} outside grid interior"
  | .boxWithBareEdge net box => some s!"net {net} box {box.toText} has an empty edge"
  | .negativeSinkCount net => some s!"net {net} has a negative layer sink count"

/-- A computation that may stop with a fault. -/
abbrev Checked := Except Fault

/-- Stops with a fault unless a condition holds. -/
def require (condition : Prop) [Decidable condition] (fault : Fault) : Checked Unit :=
  if condition then .ok () else .error fault

/-- The entry of a table at a position, or a fault. -/
def entry {table value : Type} {valid : table → Nat → Prop} [GetElem? table Nat value valid]
    (xs : table) (i : Nat) : Checked value :=
  match xs[i]? with
  | some x => .ok x
  | none => .error .outOfRange

/-- Changes one item of a list; the others stay. -/
def change {α : Type} (xs : List α) (i : Nat) (f : α → Checked α) : Checked (List α) := do
  let x ← entry xs i
  let y ← f x
  .ok (xs.set i y)

namespace Word

/-- A result that has to be a signed word of 32 bits. -/
def int32 (n : Int) : Checked Int := if IsInt32 n then .ok n else .error .overflow

/-- A result that has to be an unsigned word of 32 bits. -/
def nat32 (n : Nat) : Checked Nat := if n < size32 then .ok n else .error .overflow

/-- A result that has to be an unsigned word of 64 bits. -/
def nat64 (n : Nat) : Checked Nat := if n < size64 then .ok n else .error .overflow

/-- Refuses a table of `count` entries, each of `bytes` bytes, unless the bytes can be numbered by a
signed word of 64 bits. -/
def requireRoom (bytes count : Nat) : Checked Unit :=
  require (bytes * count < size63) .tableTooLarge

/-- One less, for a count that must not be zero. -/
def pred (n : Nat) : Checked Nat := if n = 0 then .error .overflow else .ok (n - 1)

/-- What fits is passed on. -/
theorem int32_of_isInt32 {n : Int} (h : IsInt32 n) : int32 n = .ok n := if_pos h

/-- A checked word is the number itself. -/
theorem int32_eq_ok {n m : Int} : int32 n = .ok m ↔ IsInt32 n ∧ n = m := by
  unfold int32; split <;> simp_all

/-- A checked size is the number itself. -/
theorem nat64_eq_ok {n m : Nat} : nat64 n = .ok m ↔ n < size64 ∧ n = m := by
  unfold nat64; split <;> grind

/-- There is room for a table exactly when all its bytes have numbers. -/
theorem requireRoom_eq_ok {bytes count : Nat} :
    requireRoom bytes count = .ok () ↔ bytes * count < size63 := by
  unfold requireRoom require; split <;> simp_all

end Word

end WireCost
