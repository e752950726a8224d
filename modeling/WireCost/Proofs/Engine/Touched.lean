import WireCost.Proofs.Engine.Order

/-! # The connections that a move touches

A connection can be reached from its driver and from its sink in one move, and touched connections
are listed without a look at those listed before. Still each of them is listed once.

* **`Engine.IsRetimed`** — a connection that counts, with an end that moves and another delay than
  the committed one.
* **`Engine.Steady.nodup_changed`**, **`Engine.Steady.mem_changed`** — an evaluation with timing
  touches each of these once.
* **`Engine.Steady.timingOf_commit`**, **`Engine.Steady.timingOf_commit_of_notMem`** — what a commit
  makes of them, and of all others.
* **`Engine.evaluate_touches_once`** — every evaluation with timing. -/

namespace WireCost.Engine

variable {δ α : Type} {e e' e'' : Engine δ α} {nl placed : Netlist} {m : Move}
  {inputs : TimingInputs δ} {c : NetId × Nat}

/-- An end of a connection moves whether the placement is the old or the new one. -/
theorem endMoves_apply (hm : m.Fits nl) (happly : nl.apply m = .ok placed) :
    placed.EndMoves m c ↔ nl.EndMoves m c := by
  obtain ⟨hpins, hnets⟩ := Netlist.apply_pins_nets hm happly
  rw [Netlist.EndMoves, Netlist.EndMoves, hpins, hnets]

section

variable [CostScalar α] [DelayScalar δ α]

/-- **A connection changes with a move:** its net is not ignored, an end of it sits on a block of
the move, and its delay at the new placement is not the committed one. -/
structure IsRetimed (e : Engine δ α) (nl placed : Netlist) (m : Move) (inputs : TimingInputs δ)
    (c : NetId × Nat) : Prop where
  counted : ∃ net, nl.nets[c.1.toNat]? = some net ∧ net.ignored = false ∧ c.2 < net.sinks.length
  moves : nl.EndMoves m c
  differs : ∃ delay old, inputs.delay placed c.1 c.2 = .ok delay ∧
    e.connections.timingOf c.1 c.2 = .ok old ∧ (delay == old.delay) = false

/-- The connections that a move changes, in the order in which they are timed. -/
def changed (e : Engine δ α) (placed : Netlist) (m : Move) (inputs : TimingInputs δ) :
    List (NetId × Nat) :=
  (e.retimed placed m).filter (e.connections.changes placed inputs)

variable {o : Outcome α}

/-! ## Each of them once -/

/-- **No connection changes twice,** even if both of its ends move. -/
theorem Steady.nodup_changed (h : e.Steady nl) (hm : m.Fits nl)
    (happly : nl.apply m = .ok placed) : (e.changed placed m inputs).Nodup :=
  (nodup_retimed (Netlist.consistent_apply h.tracks.consistent hm happly) hm.distinct).filter _

/-- **The connections that change** are those with another delay, among all that count and of which
an end moves. -/
theorem Steady.mem_changed (h : e.Steady nl) (hm : m.Fits nl) (happly : nl.apply m = .ok placed)
    (heval : e.evaluate placed m (some inputs) = .ok (e', o)) :
    c ∈ e.changed placed m inputs ↔ e.IsRetimed nl placed m inputs c := by
  have hnl := h.tracks.consistent
  have hproposing := h.proposing hm happly heval
  obtain ⟨-, hnets⟩ := Netlist.apply_pins_nets hm happly
  have hretimed : c ∈ e.retimed placed m ↔
      (∃ net, nl.nets[c.1.toNat]? = some net ∧ net.ignored = false ∧ c.2 < net.sinks.length) ∧
        nl.EndMoves m c := by
    rw [h.tracks.mem_retimed hm happly, endMoves_apply hm happly,
      Netlist.countedConnections_congr hnets, Netlist.mem_countedConnections hnl.nets.room.le]
  -- the committed timing of a connection stands at its position
  have htiming : ∀ net, nl.nets[c.1.toNat]? = some net → c.2 < net.sinks.length → ∀ old,
      e.connections.timingOf c.1 c.2 = .ok old ↔
        e.connections.committed[placed.slotOf c.1 c.2]? = some old := by
    intro net hnet hsink old
    rw [h.timings.timingOf_eq_ok hnl ⟨net, hnet, hsink⟩, Netlist.slotOf_congr hnets]
  rw [changed, List.mem_filter]
  constructor
  · rintro ⟨hmem, hchanges⟩
    obtain ⟨⟨net, hnet, hcounted, hsink⟩, hmoves⟩ := hretimed.1 hmem
    obtain ⟨delay, hdelay⟩ := hproposing.looked c hmem
    obtain ⟨old, hold⟩ := (h.timings.congr hnets).exists_committed (hproposing.has c hmem)
    rw [ConnectionTable.changes_eq hdelay hold] at hchanges
    exact ⟨⟨net, hnet, hcounted, hsink⟩, hmoves, delay, old, hdelay,
      (htiming net hnet hsink old).2 hold, by simpa using hchanges⟩
  · rintro ⟨⟨net, hnet, hcounted, hsink⟩, hmoves, delay, old, hdelay, hold, hdiffers⟩
    refine ⟨hretimed.2 ⟨⟨net, hnet, hcounted, hsink⟩, hmoves⟩, ?_⟩
    rw [ConnectionTable.changes_eq hdelay ((htiming net hnet hsink old).1 hold), hdiffers]
    rfl

/-- **The touched positions** are those of the connections that change, and no two are the same. -/
theorem Steady.touched_eq (h : e.Steady nl) (hm : m.Fits nl) (happly : nl.apply m = .ok placed)
    (heval : e.evaluate placed m (some inputs) = .ok (e', o)) :
    e'.connections.touched.toList = nl.slotsOf (e.changed placed m inputs) ∧
      (nl.slotsOf (e.changed placed m inputs)).Nodup := by
  have htouched := (h.orderly.idle h.idle).connections
  have hproposing := h.proposing hm happly heval
  obtain ⟨-, hnets⟩ := Netlist.apply_pins_nets hm happly
  have hslots : nl.slotsOf (e.changed placed m inputs) =
      placed.slotsOf (e.changed placed m inputs) :=
    List.map_congr_left fun c _ => (Netlist.slotOf_congr hnets).symm
  refine ⟨?_, ?_⟩
  · rw [hslots, hproposing.touched, htouched]
    rfl
  · rw [hslots]
    refine (h.nodup_changed hm happly).map_on fun c hc c' hc' heq => ?_
    -- no two connections share a position
    obtain ⟨hn, hsink⟩ := (hproposing.has c (List.mem_filter.1 hc).1).slotOf_inj
      (hproposing.has c' (List.mem_filter.1 hc').1) heq
    exact Prod.ext hn hsink

/-! ## After a commit -/

/-- **A connection that changes** is committed at its new delay and cost. -/
theorem Steady.timingOf_commit (h : e.Steady nl) (hm : m.Fits nl)
    (happly : nl.apply m = .ok placed) (heval : e.evaluate placed m (some inputs) = .ok (e', o))
    (hcommit : e'.commit = .ok e'') (hc : c ∈ e.changed placed m inputs) :
    ∃ timed old, inputs.timed placed c = .ok timed ∧ e.connections.timingOf c.1 c.2 = .ok old ∧
      e.connections.changeOf placed inputs c = timed.cost - old.cost ∧
      e''.connections.timingOf c.1 c.2 = .ok timed := by
  have hproposing := h.proposing hm happly heval
  obtain ⟨-, hnets⟩ := Netlist.apply_pins_nets hm happly
  have ht := h.timings.congr hnets
  have hplaced := Netlist.consistent_apply h.tracks.consistent hm happly
  obtain ⟨hretimed, hchanges⟩ := List.mem_filter.1 hc
  have hhas := hproposing.has c hretimed
  obtain ⟨timed, htimed, hnew⟩ := hproposing.getElem?_commit_of_changes ht hretimed hchanges
  obtain ⟨old, hold⟩ := ht.exists_committed hhas
  have ht'' : e''.connections.IsFor placed := (h.accept hm happly heval hcommit).1.timings
  rw [← ((h.orderly.evaluate heval).accepted hcommit).connections] at hnew
  refine ⟨timed, old, htimed, (ht.timingOf_eq_ok hplaced hhas).2 hold, ?_,
    (ht''.timingOf_eq_ok hplaced hhas).2 hnew⟩
  rw [ConnectionTable.changeOf, ConnectionTable.costOf_eq htimed,
    ConnectionTable.costBefore_eq hold]

/-- **Any other connection** keeps its timing. -/
theorem Steady.timingOf_commit_of_notMem (h : e.Steady nl) (hm : m.Fits nl)
    (happly : nl.apply m = .ok placed) (heval : e.evaluate placed m (some inputs) = .ok (e', o))
    (hcommit : e'.commit = .ok e'') (hhas : nl.HasConnection c.1 c.2)
    (hc : c ∉ e.changed placed m inputs) :
    e''.connections.timingOf c.1 c.2 = e.connections.timingOf c.1 c.2 := by
  have hproposing := h.proposing hm happly heval
  obtain ⟨-, hnets⟩ := Netlist.apply_pins_nets hm happly
  have ht := h.timings.congr hnets
  have hplaced := Netlist.consistent_apply h.tracks.consistent hm happly
  have hhas' : placed.HasConnection c.1 c.2 := by
    obtain ⟨net, hnet, hsink⟩ := hhas
    exact ⟨net, hnets ▸ hnet, hsink⟩
  have hkept := hproposing.getElem?_commit_of_notMem ht (h.orderly.idle h.idle).connections hhas' hc
  have ht'' : e''.connections.IsFor placed := (h.accept hm happly heval hcommit).1.timings
  rw [← ((h.orderly.evaluate heval).accepted hcommit).connections] at hkept
  obtain ⟨old, hold⟩ := ht.exists_committed hhas'
  rw [(ht.timingOf_eq_ok hplaced hhas').2 hold, ht''.timingOf_eq_ok hplaced hhas', hkept, hold]

end

/-! ## Any session -/

/-- **An evaluation with timing touches every connection that changes exactly once.** These are the
connections of nets that are not ignored that have an end on a block of the move, their driver or
their sink or both, and whose delay at the new placement is not the committed one. The touched
positions are theirs and pairwise distinct, and their number is reported. The change of the timing
cost is the sum of their changes, from the committed cost to the new delay weighed by the
criticality; computed exactly, the grouping of the sum makes no difference. A commit gives just
these connections their new delay and cost. -/
theorem evaluate_touches_once [cost : CostScalar α] [DelayScalar δ α] {o : Outcome α}
    (h : Session.Revised ⟨nl, e, none⟩) (hm : m.Fits nl) (happly : nl.apply m = .ok placed)
    (heval : e.evaluate placed m (some inputs) = .ok (e', o)) :
    ∃ changed : List (NetId × Nat), changed.Nodup ∧
      (∀ c, c ∈ changed ↔ e.IsRetimed nl placed m inputs c) ∧
      e'.connections.touched.toList = nl.slotsOf changed ∧ (nl.slotsOf changed).Nodup ∧
      o.connections = changed.length ∧
      IsSum (changed.map (e.connections.changeOf placed inputs)) o.timingDelta ∧
      (∀ exact : ExactCost α, exact.toCostScalar = cost →
        o.timingDelta = sum (changed.map (e.connections.changeOf placed inputs))) ∧
      ∃ e'', e'.commit = .ok e'' ∧
        (∀ c ∈ changed, ∃ delay weight old,
          inputs.delay placed c.1 c.2 = .ok delay ∧
          inputs.criticality c.1 c.2 = .ok weight ∧ e.connections.timingOf c.1 c.2 = .ok old ∧
          e.connections.changeOf placed inputs c =
            DelayScalar.toCost weight * DelayScalar.toCost delay - old.cost ∧
          e''.connections.timingOf c.1 c.2 =
            .ok ⟨delay, DelayScalar.toCost weight * DelayScalar.toCost delay⟩) ∧
        ∀ n sink, nl.HasConnection n sink → (n, sink) ∉ changed →
          e''.connections.timingOf n sink = e.connections.timingOf n sink := by
  have hsteady := h.sound.steady
  have hdone := hsteady.orderly.evaluated heval
  have hdelta := (hsteady.proposing hm happly heval).delta
  obtain ⟨htouched, hslots⟩ := hsteady.touched_eq hm happly heval
  obtain ⟨e'', hcommit⟩ := (hsteady.orderly.evaluate heval).exists_commit hdone.pending
  refine ⟨e.changed placed m inputs, hsteady.nodup_changed hm happly, fun c =>
    hsteady.mem_changed hm happly heval, htouched, hslots, ?_, hdelta, ?_, e'', hcommit, ?_, ?_⟩
  · rw [hdone.connectionCount, ← Array.length_toList, htouched, Netlist.slotsOf, List.length_map]
  · rintro exact rfl
    rw [sum_eq]
    exact hdelta.eq_sum
  · intro c hc
    obtain ⟨timed, old, htimed, hold, hchange, hnew⟩ :=
      hsteady.timingOf_commit hm happly heval hcommit hc
    obtain ⟨hdelay, weight, hweight, hcost⟩ := TimingInputs.timed_eq_ok.1 htimed
    refine ⟨timed.delay, weight, old, hdelay, hweight, hold, ?_, ?_⟩
    · rw [hchange, hcost]
    · rw [hnew, ← hcost]
  · exact fun n sink hhas hnot =>
      hsteady.timingOf_commit_of_notMem hm happly heval hcommit hhas hnot

/-- In the small netlist with three blocks, a move takes along the driver and one of the two sinks.
Each connection is touched once, and committed at its new delay. -/
theorem evaluate_touches_once_small :
    Sample.inOrder.1.connections.touched.toList = [0, 1] ∧
    ∃ e'', Sample.inOrder.1.commit = .ok e'' ∧
      ∃ delay weight, delay = 5 ∧ weight = 1 / 2 ∧
        e''.connections.timingOf ⟨0⟩ 0 = .ok ⟨delay, weight * delay⟩ := by
  have happly : Sample.trio.apply Sample.exchange = .ok Sample.exchanged :=
    Sample.eq_ok_result (by decide +kernel)
  have heval : Sample.trioEngine.evaluate Sample.exchanged Sample.exchange
      (some Sample.trioTiming) = .ok (Sample.inOrder.1, Sample.inOrder.2) :=
    Sample.eq_ok_result (by decide +kernel)
  obtain ⟨changed, -, hmem, -, -, -, -, -, e'', hcommit, hnew, -⟩ :=
    evaluate_touches_once Sample.revised_trioEngine Sample.fits_exchange happly heval
  have hnet : Sample.trio.nets[0]? = some ⟨⟨0⟩, "n", some ⟨0⟩, [⟨1⟩, ⟨2⟩], false⟩ := by
    decide +kernel
  have hfirst : ((⟨0⟩ : NetId), 0) ∈ changed := by
    refine (hmem _).2 ⟨⟨_, hnet, rfl, by decide⟩, ⟨_, ⟨0⟩, _, hnet, .inl rfl,
      Array.getElem?_eq_getElem (by decide +kernel), by decide +kernel⟩, 5, _, by decide +kernel,
      Sample.eq_ok_result (by decide +kernel), by decide +kernel⟩
  obtain ⟨delay, weight, old, hdelay, hweight, -, -, hcommitted⟩ := hnew _ hfirst
  obtain rfl : delay = 5 := Except.ok.inj (hdelay.symm.trans (by decide +kernel))
  obtain rfl : weight = 1 / 2 := Except.ok.inj (hweight.symm.trans (by decide +kernel))
  exact ⟨by decide +kernel, e'', hcommit, 5, 1 / 2, rfl, rfl, hcommitted⟩

end WireCost.Engine
