import WireCost.Proofs.Engine.Steady

/-! # Sessions

A session is the use of one engine for one netlist: moves are tried one after the other, and between
two of them anything may be recomputed or verified.

* **`Session`** — the netlist and the engine, and the move that is pending, if any.
* **`Session.Call`** — what can be asked; **`Session.run`** does it.
* **`Session.Call.Legal`** — when it may be asked.
* **`Session.Reached`** — the sessions that legal calls lead to.
* **`Session.Reached.sound`** — between two moves of a session the engine is steady.
* **`Session.Revised`** — sessions in which the placement is edited as well. -/

namespace WireCost

variable {δ α : Type}

/-- **The netlist and the engine,** and the move that is pending, if any. -/
structure Session (δ α : Type) where
  netlist : Netlist
  engine : Engine δ α
  move : Option Move

namespace Session

/-- What can be asked in a session. -/
inductive Call (δ α : Type) where
  /-- Applies a move and evaluates it. -/
  | propose (m : Move) (timing : Option (TimingInputs δ))
  /-- Commits the pending move. -/
  | accept
  /-- Rolls the pending move back and reverts it. -/
  | reject
  | rebuild (withLength : Bool)
  | recomputeBoxCost
  | recomputeTiming (inputs : TimingInputs δ)
  | checkTotals (totals : Totals α) (timing : Option (TimingInputs δ))
  | verify

/-- **When a call may be made.** A pending move can only be accepted or rejected. Any other call is
made between two moves, and a move that is proposed has to fit the placement. -/
def Call.Legal (s : Session δ α) : Call δ α → Prop
  | .propose m _ => s.move = none ∧ m.Fits s.netlist
  | .accept | .reject => s.move ≠ none
  | .rebuild _ | .recomputeBoxCost | .recomputeTiming _ | .checkTotals .. | .verify =>
    s.move = none

variable [CostScalar α] [DelayScalar δ α]

/-- **Does what is asked.** -/
def run (s : Session δ α) : Call δ α → Checked (Session δ α)
  | .propose m timing => do
    let netlist ← s.netlist.apply m
    let (engine, _) ← s.engine.evaluate netlist m timing
    .ok ⟨netlist, engine, some m⟩
  | .accept => do .ok { s with engine := ← s.engine.commit, move := none }
  | .reject => do
    let engine ← s.engine.rollback
    let netlist ← s.netlist.revert (s.move.getD .empty)
    .ok ⟨netlist, engine, none⟩
  | .rebuild withLength => do
    let (engine, _) ← s.engine.rebuild s.netlist withLength
    .ok { s with engine }
  | .recomputeBoxCost => do
    let _ ← s.engine.recomputeBoxCost
    .ok s
  | .recomputeTiming inputs => do
    let (engine, _) ← s.engine.recomputeTiming s.netlist inputs
    .ok { s with engine }
  | .checkTotals totals timing => do
    let check ← s.engine.checkTotals s.netlist totals timing
    .ok { s with engine := check.engine }
  | .verify => do
    let (engine, _) ← s.engine.verify s.netlist
    .ok { s with engine }

/-- **The sessions that legal calls lead to.** A session starts with a new engine for a built
netlist, on the interior of a device and with any channel factors. -/
inductive Reached : Session δ α → Prop where
  | new {nl : Netlist} {device : Device} {interior : Interior} {factors : ChannelFactors α}
      {form : BoxForm} {options : EngineOptions α} {e : Engine δ α} (hnl : nl.Built)
      (hinterior : Interior.ofDevice device = .ok (.ok interior))
      (h : Engine.ofFactors interior factors form options nl = .ok e) : Reached ⟨nl, e, none⟩
  | call {s s' : Session δ α} {call : Call δ α} (h : Reached s) (hlegal : call.Legal s)
      (hrun : s.run call = .ok s') : Reached s'

/-- A session starts with a new engine for a device as well. -/
theorem reached_ofDevice {nl : Netlist} {device : Device} {settings : CostSettings α}
    {e : Engine δ α} {findings : List (Finding α)} (hnl : nl.Built)
    (h : Engine.ofDevice nl device settings = .ok (.ok (e, findings))) : Reached ⟨nl, e, none⟩ := by
  obtain ⟨interior, factors, bare, hinterior, -, hnew, -⟩ := Engine.ofDevice_eq_ok.1 h
  exact .new hnl hinterior hnew

/-! ## Invariant -/

/-- **What is known of a session.** Between two moves the engine is steady. While a move is pending,
it has been applied to the placement and evaluated by an engine that was. -/
inductive Sound : Session δ α → Prop where
  | between {nl : Netlist} {e : Engine δ α} (h : e.Steady nl) : Sound ⟨nl, e, none⟩
  | pending {nl placed : Netlist} {e e' : Engine δ α} {m : Move} {timing : Option (TimingInputs δ)}
      {o : Outcome α} (h : e.Steady nl) (hm : m.Fits nl) (happly : nl.apply m = .ok placed)
      (heval : e.evaluate placed m timing = .ok (e', o)) : Sound ⟨placed, e', some m⟩

/-- Between two moves the engine is steady. -/
theorem Sound.steady {nl : Netlist} {e : Engine δ α} (h : Sound ⟨nl, e, none⟩) : e.Steady nl := by
  cases h with
  | between h => exact h

/-- **Every legal call** keeps a session sound, and the setup of its engine. -/
theorem Sound.run {s s' : Session δ α} {call : Call δ α} (h : s.Sound) (hlegal : call.Legal s)
    (hrun : s.run call = .ok s') : s'.Sound ∧ Engine.SameSetup s.engine s'.engine := by
  cases h with
  | between h =>
    cases call with
    | propose m timing =>
      obtain ⟨placed, happly, hrun⟩ := Checked.bind_eq_ok.1 hrun
      obtain ⟨⟨e', o⟩, heval, heq⟩ := Checked.bind_eq_ok.1 hrun
      cases heq
      exact ⟨.pending h hlegal.2 happly heval, (h.orderly.evaluated heval).same.setup⟩
    | accept => exact absurd rfl hlegal
    | reject => exact absurd rfl hlegal
    | rebuild withLength =>
      obtain ⟨⟨e', report⟩, hcall, heq⟩ := Checked.bind_eq_ok.1 hrun
      cases heq
      obtain ⟨hsteady, hsetup⟩ := h.rebuild hcall
      exact ⟨.between hsteady, hsetup⟩
    | recomputeBoxCost =>
      obtain ⟨cost, -, heq⟩ := Checked.bind_eq_ok.1 hrun
      cases heq
      exact ⟨.between h, rfl, rfl, rfl, rfl⟩
    | recomputeTiming inputs =>
      obtain ⟨⟨e', total⟩, hcall, heq⟩ := Checked.bind_eq_ok.1 hrun
      cases heq
      obtain ⟨hsteady, hsetup⟩ := h.recomputeTiming hcall
      exact ⟨.between hsteady, hsetup⟩
    | checkTotals totals timing =>
      obtain ⟨check, hcall, heq⟩ := Checked.bind_eq_ok.1 hrun
      cases heq
      obtain ⟨hsteady, hsetup⟩ := h.checkTotals hcall
      exact ⟨.between hsteady, hsetup⟩
    | verify =>
      obtain ⟨⟨e', found⟩, hcall, heq⟩ := Checked.bind_eq_ok.1 hrun
      cases heq
      obtain ⟨hsteady, hsetup⟩ := h.verify hcall
      exact ⟨.between hsteady, hsetup⟩
  | @pending nl placed e e' m timing o h hm happly heval =>
    have hevaluated := (h.orderly.evaluated heval).same.setup
    cases call with
    | accept =>
      obtain ⟨e'', hcommit, heq⟩ := Checked.bind_eq_ok.1 hrun
      cases heq
      obtain ⟨hsteady, hsetup⟩ := h.accept hm happly heval hcommit
      exact ⟨.between hsteady, hevaluated.symm.trans hsetup⟩
    | reject =>
      obtain ⟨e'', hrollback, hrun⟩ := Checked.bind_eq_ok.1 hrun
      obtain ⟨nl', hrevert, heq⟩ := Checked.bind_eq_ok.1 hrun
      cases heq
      -- reverting the move restores the placement
      obtain rfl := Netlist.eq_of_revert hm happly hrevert
      obtain ⟨hsteady, hsetup⟩ := h.reject heval hrollback
      exact ⟨.between hsteady, hevaluated.symm.trans hsetup⟩
    | propose m' timing' => cases hlegal.1
    | rebuild withLength => cases hlegal
    | recomputeBoxCost => cases hlegal
    | recomputeTiming inputs => cases hlegal
    | checkTotals totals timing' => cases hlegal
    | verify => cases hlegal

/-- **Every session that legal calls lead to is sound.** -/
theorem Reached.sound {s : Session δ α} (h : s.Reached) : s.Sound := by
  induction h with
  | new hnl hinterior h =>
    exact .between (Engine.steady_ofFactors hnl.consistent
      (Interior.layers_le_of_ofDevice hinterior) h)
  | call _ hlegal hrun ih => exact (ih.run hlegal hrun).1

/-! ## Edits -/

/-- **The sessions in which the placement is edited as well.** Between two moves blocks may be
placed elsewhere and nets ignored or not, as long as the engine is rebuilt then. -/
inductive Revised : Session δ α → Prop where
  | reached {s : Session δ α} (h : Reached s) : Revised s
  | call {s s' : Session δ α} {call : Call δ α} (h : Revised s) (hlegal : call.Legal s)
      (hrun : s.run call = .ok s') : Revised s'
  | revise {nl nl' : Netlist} {e e' : Engine δ α} {withLength : Bool}
      {report : CostReport α × List (Finding α)} (h : Revised ⟨nl, e, none⟩)
      (hwiring : nl.SameWiring nl') (hrun : e.rebuild nl' withLength = .ok (e', report)) :
      Revised ⟨nl', e', none⟩

/-- **Sessions with edits are sound,** too. -/
theorem Revised.sound {s : Session δ α} (h : s.Revised) : s.Sound := by
  induction h with
  | reached h => exact h.sound
  | call _ hlegal hrun ih => exact (ih.run hlegal hrun).1
  | revise _ hwiring hrun ih => exact .between (ih.steady.rebuild_of_sameWiring hwiring hrun).1

end Session

end WireCost
