import WireCost.Proofs.Engine.Session

/-! # Runs with timing

* **`Engine.TimedRun`** — a session in which all connections are timed once, and after that moves
  are tried with timing; the caller keeps running totals.
* **`Engine.Timed`** — every connection that counts is committed at its delay at the current
  placement.
* **`Engine.Timed.accept`**, **`Engine.Timed.reject`** — trying a move keeps that up.
* **`Engine.timings_exact`** — it holds all along every such run. -/

namespace WireCost.Engine

variable {δ α : Type} [CostScalar α] [DelayScalar δ α] {e e' e'' : Engine δ α}
  {nl placed : Netlist} {m : Move} {inputs : TimingInputs δ} {o : Outcome α} {totals : Totals α}

/-! ## Runs -/

/-- **A run with timing.** Between two moves of a session all connections are timed, and the totals
are taken down. In each later step a move is applied and evaluated with timing; then it is either
committed and added to the totals, or rolled back and reverted. -/
inductive TimedRun (inputs : TimingInputs δ) : Netlist → Engine δ α → Totals α → Prop where
  | start {nl : Netlist} {e e' : Engine δ α} {total : α} (h : Session.Reached ⟨nl, e, none⟩)
      (htime : e.recomputeTiming nl inputs = .ok (e', total)) :
      TimedRun inputs nl e' ⟨e'.boxCost, total⟩
  | accept {nl placed : Netlist} {m : Move} {o : Outcome α} {e e' e'' : Engine δ α}
      {totals : Totals α} (h : TimedRun inputs nl e totals) (hm : m.Fits nl)
      (happly : nl.apply m = .ok placed) (heval : e.evaluate placed m (some inputs) = .ok (e', o))
      (hcommit : e'.commit = .ok e'') : TimedRun inputs placed e'' (totals.apply o)
  | reject {nl placed nl' : Netlist} {m : Move} {o : Outcome α} {e e' e'' : Engine δ α}
      {totals : Totals α} (h : TimedRun inputs nl e totals) (hm : m.Fits nl)
      (happly : nl.apply m = .ok placed) (heval : e.evaluate placed m (some inputs) = .ok (e', o))
      (hrollback : e'.rollback = .ok e'') (hrevert : placed.revert m = .ok nl') :
      TimedRun inputs nl' e'' totals

/-- Along a run with timing the engine is steady between two moves. -/
theorem TimedRun.steady (h : TimedRun inputs nl e totals) : e.Steady nl := by
  induction h with
  | start h htime => exact (h.sound.steady.recomputeTiming htime).1
  | accept _ hm happly heval hcommit ih => exact (ih.accept hm happly heval hcommit).1
  | reject _ hm happly heval hrollback hrevert ih =>
    obtain rfl := Netlist.eq_of_revert hm happly hrevert
    exact (ih.reject heval hrollback).1

/-! ## Exact timings -/

/-- **A timing is that of a connection** at a placement. The delays are compared as the engine
compares them, since it keeps a delay that it finds equal to the new one. -/
structure IsTiming (inputs : TimingInputs δ) (nl : Netlist) (c : NetId × Nat)
    (timed : Connection δ α) : Prop where
  delay : ∃ delay, inputs.delay nl c.1 c.2 = .ok delay ∧
    (delay = timed.delay ∨ (delay == timed.delay) = true)
  cost : ∃ weight, inputs.criticality c.1 c.2 = .ok weight ∧
    timed.cost = DelayScalar.toCost weight * DelayScalar.toCost timed.delay

/-- **Every connection that counts is timed** for a placement. -/
def Timed (e : Engine δ α) (nl : Netlist) (inputs : TimingInputs δ) : Prop :=
  ∀ c ∈ nl.countedConnections, ∃ timed,
    e.connections.committed[nl.slotOf c.1 c.2]? = some timed ∧ IsTiming inputs nl c timed

theorem isTiming_of_timed {c : NetId × Nat} {timed : Connection δ α}
    (h : inputs.timed nl c = .ok timed) : IsTiming inputs nl c timed := by
  obtain ⟨hdelay, hcost⟩ := TimingInputs.timed_eq_ok.1 h
  exact ⟨⟨_, hdelay, .inl rfl⟩, hcost⟩

/-- Timing all connections times every one that counts. -/
theorem Steady.timed (h : e.Steady nl) {total : α}
    (htime : e.recomputeTiming nl inputs = .ok (e', total)) : e'.Timed nl inputs := by
  obtain ⟨-, t, hrecompute, rfl⟩ := recomputeTiming_eq_ok.1 htime
  have hdone := ConnectionTable.recomputed_of_recompute h.timings h.tracks.consistent.numbered
    hrecompute
  intro c hc
  obtain ⟨timed, htimed, hentry⟩ := hdone.timed c hc
  exact ⟨timed, hentry, isTiming_of_timed htimed⟩

/-- What an evaluation with timing proposes. -/
theorem Steady.proposing (h : e.Steady nl) (hm : m.Fits nl) (happly : nl.apply m = .ok placed)
    (heval : e.evaluate placed m (some inputs) = .ok (e', o)) :
    e.connections.Proposing placed inputs (e.retimed placed m) e'.connections o.timingDelta :=
  proposing_of_timeVisits (h.timings.congr (Netlist.apply_pins_nets hm happly).2)
    (Netlist.consistent_apply h.tracks.consistent hm happly) (evaluate_time heval)

/-- **After an accepted move** every connection is timed for the new placement. -/
theorem Timed.accept (h : e.Timed nl inputs) (hlocal : inputs.delay.IsLocal)
    (hsteady : e.Steady nl) (hm : m.Fits nl) (happly : nl.apply m = .ok placed)
    (heval : e.evaluate placed m (some inputs) = .ok (e', o)) (hcommit : e'.commit = .ok e'') :
    e''.Timed placed inputs := by
  have hproposing := hsteady.proposing hm happly heval
  obtain ⟨-, hnets⟩ := Netlist.apply_pins_nets hm happly
  have ht := hsteady.timings.congr hnets
  have htouched := (hsteady.orderly.idle hsteady.idle).connections
  have htimings := ((hsteady.orderly.evaluate heval).accepted hcommit).connections
  rw [Timed, htimings]
  intro c hc
  have hhas := Netlist.hasConnection_of_mem_counted hc
  obtain ⟨old, hold, hexact⟩ := h c (Netlist.countedConnections_congr hnets ▸ hc)
  rw [← Netlist.slotOf_congr hnets] at hold
  by_cases hretimed : c ∈ e.retimed placed m
  · obtain ⟨delay, hdelay⟩ := hproposing.looked c hretimed
    have hdiffers := ConnectionTable.changes_eq hdelay hold
    by_cases hsame : (delay == old.delay) = true
    · -- a delay that the engine finds unchanged is kept
      refine ⟨old, ?_, ⟨delay, hdelay, .inr hsame⟩, hexact.cost⟩
      rw [hproposing.getElem?_commit_of_notMem ht htouched hhas, hold]
      simp [hdiffers, hsame]
    · -- a delay that changes is committed anew
      obtain ⟨timed, htimed, hentry⟩ :=
        hproposing.getElem?_commit_of_changes ht hretimed (by simp [hdiffers, hsame])
      exact ⟨timed, hentry, isTiming_of_timed htimed⟩
  · -- neither end of another connection moves, so that a model that looks there tells the same
    have hstay : ¬ placed.EndMoves m c := fun hmoves =>
      hretimed ((hsteady.tracks.mem_retimed hm happly).2 ⟨hc, hmoves⟩)
    have hends := Netlist.endsOf_apply hm happly hstay
    obtain ⟨ends, hendsBefore⟩ :=
      hsteady.tracks.exists_endsOf (Netlist.countedConnections_congr hnets ▸ hc)
    obtain ⟨delay, hdelay, hsame⟩ := hexact.delay
    rw [← hlocal nl placed c.1 c.2 ends hendsBefore (hends.trans hendsBefore)] at hdelay
    refine ⟨old, ?_, ⟨delay, hdelay, hsame⟩, hexact.cost⟩
    rw [hproposing.getElem?_commit_of_notMem ht htouched hhas
      fun hmem => hretimed (List.mem_filter.1 hmem).1, hold]

/-- **After a rejected move** every connection is timed as before. -/
theorem Timed.reject (h : e.Timed nl inputs) (hsteady : e.Steady nl)
    (heval : e.evaluate placed m (some inputs) = .ok (e', o)) (hrollback : e'.rollback = .ok e'') :
    e''.Timed nl inputs := by
  have halike := (hsteady.orderly.twins_of_rollback heval hrollback).alike
  rw [Timed, halike.timings.committed]
  exact h

/-- **Along every run with timing** every connection is timed for the current placement, if the
model looks at the two ends of a connection only. -/
theorem TimedRun.timed (h : TimedRun inputs nl e totals) (hlocal : inputs.delay.IsLocal) :
    e.Timed nl inputs := by
  induction h with
  | start h htime => exact h.sound.steady.timed htime
  | accept h hm happly heval hcommit ih =>
    exact ih.accept hlocal h.steady hm happly heval hcommit
  | reject h hm happly heval hrollback hrevert ih =>
    obtain rfl := Netlist.eq_of_revert hm happly hrevert
    exact ih.reject h.steady heval hrollback

/-! ## Timing all connections once more -/

/-- Where equal delays are the same number, timings are what the model and the criticalities
give. -/
theorem IsTiming.timed_eq_ok {c : NetId × Nat} {timed : Connection δ α}
    (h : IsTiming inputs nl c timed) (hsame : ∀ a b : δ, (a == b) = true → a = b) :
    inputs.timed nl c = .ok timed := by
  obtain ⟨delay, hdelay, hequal⟩ := h.delay
  obtain rfl : delay = timed.delay := hequal.elim id (hsame _ _)
  exact TimingInputs.timed_eq_ok.2 ⟨hdelay, h.cost⟩

/-- **Timing all connections once more** changes nothing, where equal delays are the same number,
and it adds up what they cost. -/
theorem Timed.recomputeTiming (h : e.Timed nl inputs) (hsteady : e.Steady nl)
    (hsame : ∀ a b : δ, (a == b) = true → a = b) : e.recomputeTiming nl inputs = .ok (e,
      (nl.countedConnections.map (ConnectionTable.costOf nl inputs)).foldl (· + ·) zero) := by
  have htimed : ∀ c ∈ nl.countedConnections, ∃ timed, inputs.timed nl c = .ok timed ∧
      e.connections.committed[nl.slotOf c.1 c.2]? = some timed := by
    intro c hc
    obtain ⟨timed, hentry, hexact⟩ := h c hc
    exact ⟨timed, hexact.timed_eq_ok hsame, hentry⟩
  obtain ⟨t, total, hrecompute⟩ := ConnectionTable.exists_recompute hsteady.timings
    hsteady.tracks.consistent.numbered fun c hc => ⟨_, (htimed c hc).choose_spec.1⟩
  have hdone := ConnectionTable.recomputed_of_recompute hsteady.timings
    hsteady.tracks.consistent.numbered hrecompute
  -- what is written at each position is what stands there
  have hcommitted : t.committed = e.connections.committed := by
    refine Array.ext_getElem? fun i => ?_
    by_cases hi : i ∈ nl.slotsOf nl.countedConnections
    · obtain ⟨c, hc, rfl⟩ := List.mem_map.1 hi
      obtain ⟨timed, hok, hentry⟩ := htimed c hc
      obtain ⟨timed', hok', hentry'⟩ := hdone.timed c hc
      obtain rfl := Except.ok.inj (hok.symm.trans hok')
      rw [hentry', hentry]
    · exact hdone.others i hi
  have ht : t = e.connections := by
    rw [hdone.rest, hcommitted]
  refine recomputeTiming_eq_ok.2 ⟨hsteady.idle, t, ?_, by rw [ht]⟩
  rw [hrecompute, hdone.total]

end WireCost.Engine

/-! ## A small run with timing -/

namespace WireCost.Sample

/-- Delays that grow by two with each column and row, and criticalities of one half. -/
def timing : TimingInputs Rat :=
  ⟨manhattan ⟨1, 2, 3⟩, (Criticality.uniform netlist (1 / 2 : Rat)).get⟩

/-- The small engine with its one connection timed, and what that costs. -/
def timed : Engine Rat Rat × Rat :=
  result (engine.recomputeTiming netlist timing) (by decide +kernel)

/-- The timed engine with the move pending, and what the move changes. -/
def tried : Engine Rat Rat × Outcome Rat :=
  result (timed.1.evaluate placed move (some timing)) (by decide +kernel)

/-- The timed engine after the move. -/
def moved : Engine Rat Rat := result tried.1.commit (by decide +kernel)

theorem timedRun_moved : Engine.TimedRun timing placed moved
    ((⟨timed.1.boxCost, timed.2⟩ : Totals Rat).apply tried.2) := by
  obtain ⟨findings, h⟩ := engine_eq
  have hstart := Engine.TimedRun.start (Session.reached_ofDevice built_netlist h)
    (eq_ok_result (by decide +kernel) : engine.recomputeTiming netlist timing = .ok timed)
  exact hstart.accept fits_move apply_eq (eq_ok_result (by decide +kernel))
    (eq_ok_result (by decide +kernel))

end WireCost.Sample

namespace WireCost.Engine

variable {δ α : Type} [CostScalar α] [DelayScalar δ α] {e : Engine δ α} {nl : Netlist}
  {inputs : TimingInputs δ} {totals : Totals α}

/-- **Connection timing stays exact over whole runs,** with a model of delays that looks at the two
ends of a connection only. After all connections have been timed once, and after every later move
that is evaluated with timing and then committed, or rolled back and reverted, each connection of
each net that is not ignored is committed at the delay that the model gives at the current
placement, and its cost is that delay weighed by its criticality. Where equal delays are the same
number, timing all connections once more leaves the engine as it is. -/
theorem timings_exact (hlocal : inputs.delay.IsLocal) (h : TimedRun inputs nl e totals) :
    (∀ n net sink, nl.nets[n.toNat]? = some net → net.ignored = false →
      sink < net.sinks.length → ∃ timed delay weight,
        e.connections.timingOf n sink = .ok timed ∧
        inputs.delay nl n sink = .ok delay ∧
        (delay = timed.delay ∨ (delay == timed.delay) = true) ∧
        inputs.criticality n sink = .ok weight ∧
        timed.cost = DelayScalar.toCost weight * DelayScalar.toCost timed.delay) ∧
    ((∀ a b : δ, (a == b) = true → a = b) →
      ∃ total, e.recomputeTiming nl inputs = .ok (e, total)) := by
  have hsteady := h.steady
  have hnl := hsteady.tracks.consistent
  refine ⟨fun n net sink hnet hcounted hsink => ?_, fun hsame =>
    ⟨_, (h.timed hlocal).recomputeTiming hsteady hsame⟩⟩
  obtain ⟨timed, hentry, ⟨delay, hdelay, hequal⟩, weight, hweight, hcost⟩ :=
    h.timed hlocal (n, sink) ((Netlist.mem_countedConnections hnl.nets.room.le).2
      ⟨net, hnet, hcounted, hsink⟩)
  exact ⟨timed, delay, weight, (hsteady.timings.timingOf_eq_ok hnl ⟨net, hnet, hsink⟩).2 hentry,
    hdelay, hequal, hweight, hcost⟩

/-- In the small run the connection gets shorter by one column, and so is its committed delay. -/
theorem timings_exact_small : ∃ timed, Sample.moved.connections.timingOf ⟨0⟩ 0 = .ok timed ∧
    timed.delay = 3 ∧ timed.cost = 3 / 2 ∧
    ∃ total, Sample.moved.recomputeTiming Sample.placed Sample.timing =
      .ok (Sample.moved, total) := by
  obtain ⟨hexact, hagain⟩ := timings_exact (isLocal_manhattan _) Sample.timedRun_moved
  obtain ⟨timed, delay, weight, htimed, hdelay, hequal, hweight, hcost⟩ :=
    hexact ⟨0⟩ _ 0 (Array.getElem?_eq_getElem (by decide +kernel)) (by decide +kernel)
      (by decide +kernel)
  have hlaw : ∀ a b : Rat, (a == b) = true → a = b := fun _ _ => eq_of_beq
  obtain rfl : delay = 3 := Except.ok.inj (hdelay.symm.trans (by decide +kernel))
  obtain rfl : weight = 1 / 2 := Except.ok.inj (hweight.symm.trans (by decide +kernel))
  have h3 : 3 = timed.delay := hequal.elim id (hlaw _ _)
  refine ⟨timed, htimed, h3.symm, ?_, hagain hlaw⟩
  rw [hcost, ← h3]
  decide +kernel

end WireCost.Engine
