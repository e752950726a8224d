/-! # Switches on a command line

* **`Switch`** — a switch with its names and what it sets.
* **`readSwitches`** — reads arguments from left to right and sets what they ask for.

A switch is written `--name`, or `-n` if it has a short name; short switches can be joined. A value
follows as the next argument or is attached, `--name=value`, `-nvalue` or `-n=value`. Everything
else is an operand, and so is everything behind `--`. A switch must not be repeated. -/

namespace WireCost

/-- Why the reading of arguments stops. -/
inductive Halt where
  /-- The arguments do not make sense. -/
  | usage
  /-- Help is asked for. -/
  | help
  /-- The version is asked for. -/
  | version
deriving DecidableEq, Repr

/-- A switch that changes settings of type `σ`. -/
structure Switch (σ : Type) where
  name : String
  short : Option Char
  takesValue : Bool
  /-- The settings after the switch; the value is empty for a switch that takes none. -/
  set : String → σ → Except Halt σ

namespace Switch

variable {σ : Type}

/-- A switch without value. -/
def flag (name : String) (short : Option Char) (set : σ → σ) : Switch σ :=
  ⟨name, short, false, fun _ s => .ok (set s)⟩

/-- A switch whose value is read by `read`. -/
def option {α : Type} (name : String) (short : Option Char) (read : String → Option α)
    (set : α → σ → σ) : Switch σ :=
  ⟨name, short, true, fun text s =>
    match read text with
    | some value => .ok (set value s)
    | none => .error .usage⟩

/-- A switch that ends the reading. -/
def halt (name : String) (short : Option Char) (reason : Halt) : Switch σ :=
  ⟨name, short, false, fun _ _ => .error reason⟩

/-- What stands for a switch that does not exist. -/
def unknown : Switch σ := halt "" none .usage

end Switch

/-! ## One argument -/

/-- How far the reading has got. -/
structure Progress (σ : Type) where
  /-- The switches given so far. -/
  given : List String
  state : σ

namespace Progress

variable {σ : Type}

/-- Sets what a switch asks for. -/
def apply (p : Progress σ) (s : Switch σ) (value : String) : Except Halt (Progress σ) := do
  if p.given.contains s.name then .error .usage
  else .ok ⟨s.name :: p.given, ← s.set value p.state⟩

/-- A switch that still waits for its value, if any, and the progress so far. -/
abbrev Waiting (σ : Type) := Progress σ × Option (Switch σ)

/-- Reads `--name` or `--name=value`, without its dashes. -/
def readLong (table : List (Switch σ)) (p : Progress σ) (text : List Char) :
    Except Halt (Waiting σ) := do
  let name := String.ofList (text.takeWhile (· ≠ '='))
  let s := (table.find? (·.name == name)).getD .unknown
  match text.dropWhile (· ≠ '='), s.takesValue with
  | _ :: value, true => .ok (← p.apply s (.ofList value), none)
  | _ :: _, false => .error .usage
  | [], true => .ok (p, some s)
  | [], false => .ok (← p.apply s "", none)

/-- Reads joined short switches, without their dash. -/
def readShort (table : List (Switch σ)) (p : Progress σ) : List Char → Except Halt (Waiting σ)
  | [] => .ok (p, none)
  | c :: rest => do
    let s := (table.find? (·.short == some c)).getD .unknown
    if s.takesValue then
      match rest with
      | [] => .ok (p, some s)
      | '=' :: value => .ok (← p.apply s (.ofList value), none)
      | value => .ok (← p.apply s (.ofList value), none)
    else (← p.apply s "").readShort table rest

end Progress

/-- Whether an argument cannot be a value or an operand. A dash alone can. -/
def isSwitch (arg : String) : Bool :=
  match arg.toList with
  | '-' :: _ :: _ => true
  | _ => false

/-! ## All arguments -/

/-- What happens to an operand. -/
inductive OperandRule (σ : Type) where
  /-- The reading ends in front of it. -/
  | stop
  /-- It sets something, unless it is not expected. -/
  | take (set : String → σ → Option σ)

/-- Takes operands behind `--`. -/
def takeOperands {σ : Type} (rule : OperandRule σ) (state : σ) (operands : List String) :
    Except Halt σ :=
  match rule with
  | .stop => .error .usage
  | .take set =>
    match operands.foldlM (fun s operand => set operand s) state with
    | some state => .ok state
    | none => .error .usage

/-- **Reads arguments from left to right.** The answer is what they set, and the arguments that are
left where the reading ends in front of an operand. -/
def readSwitches {σ : Type} (table : List (Switch σ)) (rule : OperandRule σ) (p : Progress σ) :
    List String → Except Halt (σ × List String)
  | [] => .ok (p.state, [])
  | arg :: rest =>
    if arg == "--" then do .ok (← takeOperands rule p.state rest, [])
    else if isSwitch arg then
      let read := match arg.toList with
        | '-' :: '-' :: text => p.readLong table text
        | text => p.readShort table (text.drop 1)
      match read, rest with
      | .error reason, _ => .error reason
      | .ok (p, none), rest => readSwitches table rule p rest
      | .ok (_, some _), [] => .error .usage
      | .ok (p, some s), value :: rest =>
        if isSwitch value then .error .usage
        else
          match p.apply s value with
          | .ok p => readSwitches table rule p rest
          | .error reason => .error reason
    else
      match rule with
      | .stop => .ok (p.state, arg :: rest)
      | .take set =>
        match set arg p.state with
        | some state => readSwitches table rule { p with state } rest
        | none => .error .usage

end WireCost
