import WireCost.Proofs.Engine.Frame
import WireCost.Proofs.Exact
import WireCost.Proofs.Timing.Connections

/-! # What timing connections does to the table

* **`ConnectionTable.IsFor`** — a table with a place for every connection of a netlist.
* **`DelayModel.IsLocal`** — a model that looks at the two ends of a connection only.
* **`TimingInputs.timed`** — the timing of a connection at a placement.
* **`ConnectionTable.Recomputed`** — every connection has been timed again.
* **`ConnectionTable.Proposing`** — some connections have been timed for the pending move.
* **`ConnectionTable.getElem?_commit`** — the touched connections take over what was proposed. -/

namespace WireCost

variable {δ α : Type}

/-! ## Delays -/

/-- **The ends of a connection** are the sites of its driver and its sink. -/
theorem Netlist.endsOf_eq_ok {nl : Netlist} {n : NetId} {sink : Nat} {ends : Site × Site} :
    nl.endsOf n sink = .ok ends ↔ ∃ net driver p, nl.nets[n.toNat]? = some net ∧
      net.driver = some driver ∧ net.sinks[sink]? = some p ∧ nl.siteOf driver = .ok ends.1 ∧
      nl.siteOf p = .ok ends.2 := by
  have hdriver {driver : PinId} : nl.driverOf n = .ok driver ↔
      ∃ net, nl.nets[n.toNat]? = some net ∧ net.driver = some driver := by
    simp only [driverOf, Netlist.net, Checked.bind_eq_ok, entry_eq_ok]
    refine exists_congr fun net => and_congr_right fun _ => ?_
    split
    case h_1 hsome => simp [hsome]
    case h_2 hnone => simp [hnone]
  simp only [endsOf, Checked.bind_eq_ok, hdriver, Netlist.net, entry_eq_ok]
  constructor
  · rintro ⟨driver, ⟨net, hnet, hdriver⟩, a, ha, net', hnet', p, hp, b, hb, heq⟩
    obtain rfl := Option.some.inj (hnet.symm.trans hnet')
    cases heq
    exact ⟨net, driver, p, hnet, hdriver, hp, ha, hb⟩
  · rintro ⟨net, driver, p, hnet, hdriver, hp, ha, hb⟩
    exact ⟨driver, ⟨net, hnet, hdriver⟩, ends.1, ha, net, hnet, p, hp, ends.2, hb, rfl⟩

/-- **A model that looks at the two ends of a connection only:** however the placement changes, the
delay stays as long as the driver and the sink are at the same sites. -/
def DelayModel.IsLocal (model : DelayModel δ) : Prop :=
  ∀ (nl placed : Netlist) (n : NetId) (sink : Nat) (ends : Site × Site),
    nl.endsOf n sink = .ok ends → placed.endsOf n sink = .ok ends →
      model placed n sink = model nl n sink

/-! ## The timing of a connection -/

section

variable [CostScalar α] [DelayScalar δ α]

omit [CostScalar α] in
theorem manhattan_eq_ok {d : LinearDelay δ} {nl : Netlist} {n : NetId} {sink : Nat} {delay : δ} :
    manhattan d nl n sink = .ok delay ↔
      ∃ ends, nl.endsOf n sink = .ok ends ∧ d.between ends.1 ends.2 = .ok delay :=
  Checked.bind_eq_ok

omit [CostScalar α] in
/-- **Delays linear in the distance** look at the two ends only. -/
theorem isLocal_manhattan (d : LinearDelay δ) : (manhattan d).IsLocal := by
  intro nl placed n sink ends hends hends'
  rw [manhattan, manhattan, hends, hends']

/-- **The timing of a connection** at a placement. -/
def TimingInputs.timed (inputs : TimingInputs δ) (nl : Netlist) (c : NetId × Nat) :
    Checked (Connection δ α) := do
  ConnectionTable.timing inputs c.1 c.2 (← inputs.delay nl c.1 c.2)

variable {inputs : TimingInputs δ} {nl : Netlist} {c : NetId × Nat} {timed : Connection δ α}

/-- The cost of a connection is its delay, weighed by its criticality. -/
theorem TimingInputs.timed_eq_ok : inputs.timed nl c = .ok timed ↔
    inputs.delay nl c.1 c.2 = .ok timed.delay ∧ ∃ weight,
      inputs.criticality c.1 c.2 = .ok weight ∧
        timed.cost = DelayScalar.toCost weight * DelayScalar.toCost timed.delay := by
  simp only [TimingInputs.timed, ConnectionTable.timing, Checked.bind_eq_ok, Except.ok.injEq]
  constructor
  · rintro ⟨delay, hdelay, weight, hweight, rfl⟩
    exact ⟨hdelay, weight, hweight, rfl⟩
  · rintro ⟨hdelay, weight, hweight, hcost⟩
    exact ⟨_, hdelay, weight, hweight, by rw [← hcost]⟩

end

namespace ConnectionTable

/-- The committed timing of a connection. -/
def timingOf (t : ConnectionTable δ α) (n : NetId) (sink : Nat) : Checked (Connection δ α) := do
  entry t.committed (← connectionSlot t.offsets n sink)

/-! ## Tables for a netlist -/

/-- **A table with a place for every connection** of a netlist. -/
structure IsFor (t : ConnectionTable δ α) (nl : Netlist) : Prop where
  offsets : t.offsets = connectionOffsets nl
  committed : t.committed.size = connectionCount (connectionOffsets nl)
  proposed : t.proposed.size = connectionCount (connectionOffsets nl)

variable {nl placed : Netlist} {t t' t'' t₀ : ConnectionTable δ α} {n : NetId} {sink : Nat}
  {inputs : TimingInputs δ} {total total' delta delta' change : α}
  {done done' : List (NetId × Nat)} {c : NetId × Nat}

namespace IsFor

theorem of_sameCommitted (h : t.IsFor nl) (hsame : SameCommitted t t') : t'.IsFor nl where
  offsets := hsame.offsets.trans h.offsets
  committed := by rw [hsame.committed, h.committed]
  proposed := hsame.size.trans h.proposed

theorem of_offsets (h : t.IsFor nl) (hoffsets : connectionOffsets placed = connectionOffsets nl) :
    t.IsFor placed :=
  ⟨h.offsets.trans hoffsets.symm, by rw [h.committed, hoffsets], by rw [h.proposed, hoffsets]⟩

theorem congr (h : t.IsFor nl) (hnets : placed.nets = nl.nets) : t.IsFor placed :=
  h.of_offsets (connectionOffsets_congr hnets)

theorem commit (h : t.IsFor nl) : t.commit.IsFor nl :=
  ⟨h.offsets, (size_commit t).trans h.committed, h.proposed⟩

/-- The committed timing of a connection is there. -/
theorem exists_committed (h : t.IsFor nl) (hc : nl.HasConnection n sink) :
    ∃ old, t.committed[nl.slotOf n sink]? = some old :=
  ⟨_, Array.getElem?_eq_getElem (h.committed ▸ hc.slotOf_lt)⟩

/-- The position of a connection is that of the table. -/
theorem connectionSlot_eq (h : t.IsFor nl) (hnl : nl.Numbered) (hc : nl.HasConnection n sink) :
    connectionSlot t.offsets n sink = .ok (nl.slotOf n sink) := by
  rw [h.offsets, hc.connectionSlot_eq hnl]

/-- The committed timing of a connection stands at its position. -/
theorem timingOf_eq (h : t.IsFor nl) (hnl : nl.Numbered) (hc : nl.HasConnection n sink) :
    t.timingOf n sink = entry t.committed (nl.slotOf n sink) := by
  rw [timingOf, h.connectionSlot_eq hnl hc, Checked.ok_bind]

theorem timingOf_eq_ok (h : t.IsFor nl) (hnl : nl.Consistent) (hc : nl.HasConnection n sink)
    {timed : Connection δ α} :
    t.timingOf n sink = .ok timed ↔ t.committed[nl.slotOf n sink]? = some timed := by
  rw [h.timingOf_eq hnl.numbered hc, entry_eq_ok]

end IsFor

variable [CostScalar α] [DelayScalar δ α]

/-- A new table is one for its netlist. -/
theorem isFor_blank (nl : Netlist) : (blank nl : ConnectionTable δ α).IsFor nl :=
  ⟨rfl, Array.size_replicate, Array.size_replicate⟩

/-! ## Timing every connection again -/

/-- What a connection costs. -/
def costOf (nl : Netlist) (inputs : TimingInputs δ) (c : NetId × Nat) : α :=
  match inputs.timed nl c with
  | .ok timed => timed.cost
  | .error _ => zero

theorem costOf_eq {timed : Connection δ α} (h : inputs.timed nl c = .ok timed) :
    costOf nl inputs c = timed.cost := by
  rw [costOf, h]

/-- **The connections in `done` have been timed again,** and nothing has happened to the others. -/
structure Recomputed (t₀ : ConnectionTable δ α) (nl : Netlist) (inputs : TimingInputs δ)
    (done : List (NetId × Nat)) (t : ConnectionTable δ α) (total : α) : Prop where
  rest : t = { t₀ with committed := t.committed }
  size : t.committed.size = t₀.committed.size
  timed : ∀ c ∈ done, ∃ timed, inputs.timed nl c = .ok timed ∧
    t.committed[nl.slotOf c.1 c.2]? = some timed
  others : ∀ i, i ∉ nl.slotsOf done → t.committed[i]? = t₀.committed[i]?
  total : total = (done.map (costOf nl inputs)).foldl (· + ·) zero

/-- Timing all connections is one loop over those that count. -/
theorem recompute_eq (t : ConnectionTable δ α) (nl : Netlist) (inputs : TimingInputs δ) :
    t.recompute nl inputs = nl.countedConnections.foldlM
      (fun s c => recomputeOne nl inputs c.1 s c.2) (t, zero) := by
  have hids : ∀ n ∈ (List.range nl.nets.size).map NetId.ofNat, n.toNat < nl.nets.size := by
    intro n hn
    obtain ⟨i, hi, rfl⟩ := List.mem_map.1 hn
    exact (Nat.mod_le i Word.size32).trans_lt (List.mem_range.1 hi)
  rw [recompute, Netlist.countedConnections, Netlist.countedNets]
  -- net by net, where an ignored net has no connections that count
  generalize (t, (zero : α)) = s
  generalize (List.range nl.nets.size).map NetId.ofNat = ids at hids
  induction ids generalizing s with
  | nil => rfl
  | cons n ns ih =>
    have hlt := hids n List.mem_cons_self
    have hnet := Array.getElem?_eq_getElem hlt
    have hrest := fun s => ih s fun n' hn' => hids n' (List.mem_cons_of_mem n hn')
    rw [List.foldlM_cons, recomputeNet, Netlist.net, entry_of_some hnet, Checked.ok_bind,
      List.filter_cons, hnet]
    by_cases hignored : nl.nets[n.toNat].ignored = true
    · rw [if_pos hignored, Checked.ok_bind, if_neg (by simp [hignored]), hrest]
    · rw [if_neg hignored, if_pos (by simp [hignored]), List.flatMap_cons, List.foldlM_append,
        Netlist.connectionsOf, Netlist.fanout_eq hnet, List.foldlM_map]
      exact congrArg _ (funext hrest)

/-- Timing one connection again. -/
theorem recomputeOne_eq_ok (ht : t.IsFor nl) (hnl : nl.Numbered)
    (hc : nl.HasConnection c.1 c.2) :
    recomputeOne nl inputs c.1 (t, total) c.2 = .ok (t', total') ↔
      ∃ timed, inputs.timed nl c = .ok timed ∧
        { t with committed := t.committed.setIfInBounds (nl.slotOf c.1 c.2) timed } = t' ∧
          total + timed.cost = total' := by
  obtain ⟨old, hold⟩ := ht.exists_committed hc
  simp only [recomputeOne, ht.connectionSlot_eq hnl hc, Checked.ok_bind, TimingInputs.timed,
    entry_of_some hold, Checked.bind_eq_ok, Except.ok.injEq, Prod.mk.injEq]
  constructor
  · rintro ⟨delay, hdelay, timed, htimed, h⟩
    exact ⟨timed, ⟨delay, hdelay, htimed⟩, h⟩
  · rintro ⟨timed, ⟨delay, hdelay, htimed⟩, h⟩
    exact ⟨delay, hdelay, timed, htimed, h⟩

theorem Recomputed.start (t : ConnectionTable δ α) (nl : Netlist) (inputs : TimingInputs δ) :
    Recomputed t nl inputs [] t zero :=
  ⟨rfl, rfl, by simp, fun _ _ => rfl, rfl⟩

theorem Recomputed.isFor (h : Recomputed t₀ nl inputs done t total) (ht : t₀.IsFor nl) :
    t.IsFor nl := by
  refine ⟨?_, h.size.trans ht.committed, ?_⟩
  · rw [h.rest]
    exact ht.offsets
  · rw [h.rest]
    exact ht.proposed

/-- **One more connection** is timed again. -/
theorem Recomputed.recomputeOne (h : Recomputed t₀ nl inputs done t total) (ht : t₀.IsFor nl)
    (hnl : nl.Numbered) (hdone : ∀ c ∈ done, nl.HasConnection c.1 c.2)
    (hc : nl.HasConnection c.1 c.2)
    (hstep : recomputeOne nl inputs c.1 (t, total) c.2 = .ok (t', total')) :
    Recomputed t₀ nl inputs (done ++ [c]) t' total' := by
  obtain ⟨timed, htimed, rfl, rfl⟩ := (recomputeOne_eq_ok (h.isFor ht) hnl hc).1 hstep
  have hlt : nl.slotOf c.1 c.2 < t.committed.size := by
    rw [h.size, ht.committed]
    exact hc.slotOf_lt
  refine ⟨?_, Array.size_setIfInBounds.trans h.size, ?_, ?_, ?_⟩
  · rw [h.rest]
  · intro c' hc'
    by_cases heq : c' = c
    · subst heq
      exact ⟨timed, htimed, Array.getElem?_setIfInBounds_self_of_lt hlt⟩
    · have hmem : c' ∈ done := by simpa [heq] using hc'
      obtain ⟨timed', htimed', hentry⟩ := h.timed c' hmem
      refine ⟨timed', htimed', ?_⟩
      -- another connection stands elsewhere
      rw [Array.getElem?_setIfInBounds_ne, hentry]
      intro hslot
      obtain ⟨hnet, hsink⟩ := hc.slotOf_inj (hdone c' hmem) hslot
      exact heq (Prod.ext hnet.symm hsink.symm)
  · intro i hi
    rw [Netlist.slotsOf, List.map_append, List.mem_append, not_or, List.map_singleton,
      List.mem_singleton] at hi
    rw [Array.getElem?_setIfInBounds_ne (Ne.symm hi.2), h.others i hi.1]
  · rw [List.map_append, List.foldl_append, ← h.total, List.map_singleton, costOf_eq htimed]
    rfl

/-- **Timing all connections again** does that to all connections that count. -/
theorem recomputed_of_recompute (ht : t.IsFor nl) (hnl : nl.Numbered)
    (h : t.recompute nl inputs = .ok (t', total)) :
    Recomputed t nl inputs nl.countedConnections t' total := by
  rw [recompute_eq] at h
  refine Checked.foldlM_induct (c := (t', total))
    (fun done s => Recomputed t nl inputs done s.1 s.2) (.start t nl inputs) ?_ h
  intro done c rest s s' hall hs hstep
  have hhas : ∀ c' ∈ done ++ [c], nl.HasConnection c'.1 c'.2 := by
    intro c' hc'
    refine Netlist.hasConnection_of_mem_counted ?_
    rw [hall]
    simp only [List.mem_append, List.mem_cons] at hc' ⊢
    tauto
  exact hs.recomputeOne ht hnl (fun c' hc' => hhas c' (by simp [hc'])) (hhas c (by simp)) hstep

/-- **Timing all connections again succeeds** when each of them can be timed. -/
theorem exists_recompute (ht : t.IsFor nl) (hnl : nl.Numbered)
    (htimed : ∀ c ∈ nl.countedConnections, ∃ timed : Connection δ α,
      inputs.timed nl c = .ok timed) :
    ∃ t' total, t.recompute nl inputs = .ok (t', total) := by
  rw [recompute_eq]
  obtain ⟨⟨t', total⟩, h, -⟩ := Checked.foldlM_progress
    (f := fun s c => ConnectionTable.recomputeOne nl inputs c.1 s c.2)
    (l := nl.countedConnections) (b := (t, zero)) (fun _ s => s.1.IsFor nl) ht (by
      rintro done c rest ⟨t₁, total₁⟩ hall ht₁
      have hc : c ∈ nl.countedConnections := by simp [hall]
      obtain ⟨timed, hok⟩ := htimed c hc
      have hstep : recomputeOne nl inputs c.1 (t₁, total₁) c.2 = .ok (_, total₁ + timed.cost) :=
        (recomputeOne_eq_ok ht₁ hnl (Netlist.hasConnection_of_mem_counted hc)).2
          ⟨timed, hok, rfl, rfl⟩
      exact ⟨_, hstep, ht₁.offsets, Array.size_setIfInBounds.trans ht₁.committed, ht₁.proposed⟩)
  exact ⟨t', total, h⟩

/-- **Timing all connections again** is possible exactly when each of those that count can be
timed. -/
theorem exists_recompute_iff (ht : t.IsFor nl) (hnl : nl.Numbered) :
    (∃ t' total, t.recompute nl inputs = .ok (t', total)) ↔
      ∀ c ∈ nl.countedConnections, ∃ timed : Connection δ α, inputs.timed nl c = .ok timed := by
  refine ⟨?_, exists_recompute ht hnl⟩
  rintro ⟨t', total, h⟩ c hc
  obtain ⟨timed, htimed, -⟩ := (recomputed_of_recompute ht hnl h).timed c hc
  exact ⟨timed, htimed⟩

/-! ## Timing connections for the pending move -/

/-- A connection changes its delay: the one at the placement is not the committed one. -/
def changes (t : ConnectionTable δ α) (nl : Netlist) (inputs : TimingInputs δ)
    (c : NetId × Nat) : Bool :=
  match inputs.delay nl c.1 c.2, t.committed[nl.slotOf c.1 c.2]? with
  | .ok delay, some old => !(delay == old.delay)
  | _, _ => false

/-- What a connection costs as committed. -/
def costBefore (t : ConnectionTable δ α) (nl : Netlist) (c : NetId × Nat) : α :=
  (t.committed[nl.slotOf c.1 c.2]?.map (·.cost)).getD zero

/-- By how much the cost of a connection differs from the committed one. -/
def changeOf (t : ConnectionTable δ α) (nl : Netlist) (inputs : TimingInputs δ)
    (c : NetId × Nat) : α :=
  costOf nl inputs c - t.costBefore nl c

omit [DelayScalar δ α] in
theorem costBefore_eq {old : Connection δ α} (h : t.committed[nl.slotOf c.1 c.2]? = some old) :
    t.costBefore nl c = old.cost := by
  rw [costBefore, h, Option.map_some, Option.getD_some]

/-- **The connections in `done` have been timed for the pending move:** those that change their
delay are listed as touched, what is proposed for them is their timing at the new placement, and
the total is the sum of their changes. -/
structure Proposing (t₀ : ConnectionTable δ α) (nl : Netlist) (inputs : TimingInputs δ)
    (done : List (NetId × Nat)) (t : ConnectionTable δ α) (delta : α) : Prop where
  same : SameCommitted t₀ t
  has : ∀ c ∈ done, nl.HasConnection c.1 c.2
  looked : ∀ c ∈ done, ∃ delay, inputs.delay nl c.1 c.2 = .ok delay
  touched : t.touched.toList =
    t₀.touched.toList ++ nl.slotsOf (done.filter (t₀.changes nl inputs))
  proposed : ∀ c ∈ done, t₀.changes nl inputs c = true → ∃ timed, inputs.timed nl c = .ok timed ∧
    t.proposed[nl.slotOf c.1 c.2]? = some timed
  others : ∀ i, i ∉ nl.slotsOf (done.filter (t₀.changes nl inputs)) →
    t.proposed[i]? = t₀.proposed[i]?
  delta : IsSum ((done.filter (t₀.changes nl inputs)).map (t₀.changeOf nl inputs)) delta

omit [CostScalar α] in
theorem changes_eq {delay : δ} {old : Connection δ α}
    (hdelay : inputs.delay nl c.1 c.2 = .ok delay)
    (hold : t.committed[nl.slotOf c.1 c.2]? = some old) :
    t.changes nl inputs c = !(delay == old.delay) := by
  rw [changes, hdelay, hold]

omit [CostScalar α] in
theorem SameCommitted.changes_eq (h : SameCommitted t t') (nl : Netlist)
    (inputs : TimingInputs δ) : t'.changes nl inputs = t.changes nl inputs := by
  funext c
  rw [changes, changes, h.committed]

theorem SameCommitted.changeOf_eq (h : SameCommitted t t') (nl : Netlist)
    (inputs : TimingInputs δ) : t'.changeOf nl inputs = t.changeOf nl inputs := by
  funext c
  rw [changeOf, changeOf, costBefore, costBefore, h.committed]

/-- Timing one connection for the pending move. -/
theorem propose_eq_ok (ht : t.IsFor nl) (hnl : nl.Numbered) (hc : nl.HasConnection c.1 c.2) :
    t.propose nl inputs c.1 c.2 = .ok (t', change) ↔
      ∃ delay old, inputs.delay nl c.1 c.2 = .ok delay ∧
        t.committed[nl.slotOf c.1 c.2]? = some old ∧
          if delay == old.delay then t = t' ∧ zero = change
          else ∃ timed, inputs.timed nl c = .ok timed ∧
            { t with
              proposed := t.proposed.setIfInBounds (nl.slotOf c.1 c.2) timed
              touched := t.touched.push (nl.slotOf c.1 c.2) } = t' ∧
            timed.cost - old.cost = change := by
  simp only [propose, ht.connectionSlot_eq hnl hc, Checked.ok_bind, Checked.bind_eq_ok,
    entry_eq_ok]
  refine exists_congr fun delay => ?_
  constructor
  · rintro ⟨hdelay, old, hold, h⟩
    refine ⟨old, hdelay, hold, ?_⟩
    split at h
    · rename_i hsame
      cases h
      rw [if_pos hsame]
      exact ⟨rfl, rfl⟩
    · rename_i hdiffers
      obtain ⟨timed, htimed, h⟩ := Checked.bind_eq_ok.1 h
      cases h
      rw [if_neg hdiffers]
      refine ⟨timed, ?_, rfl, rfl⟩
      rw [TimingInputs.timed, hdelay, Checked.ok_bind, htimed]
  · rintro ⟨old, hdelay, hold, h⟩
    refine ⟨hdelay, old, hold, ?_⟩
    split at h
    · rename_i hsame
      obtain ⟨rfl, rfl⟩ := h
      rw [if_pos hsame]
    · rename_i hdiffers
      obtain ⟨timed, htimed, rfl, rfl⟩ := h
      rw [TimingInputs.timed, hdelay, Checked.ok_bind] at htimed
      rw [if_neg hdiffers, htimed]
      rfl

/-- **A connection can be timed for the pending move:** its delay at the placement can be told, and
its timing if this delay is not the committed one. -/
def Timeable (t : ConnectionTable δ α) (nl : Netlist) (inputs : TimingInputs δ)
    (c : NetId × Nat) : Prop :=
  (∃ delay, inputs.delay nl c.1 c.2 = .ok delay) ∧
    (t.changes nl inputs c = true → ∃ timed : Connection δ α, inputs.timed nl c = .ok timed)

theorem timeable_of_timed {timed : Connection δ α} (h : inputs.timed nl c = .ok timed) :
    t.Timeable nl inputs c :=
  ⟨⟨_, (TimingInputs.timed_eq_ok.1 h).1⟩, fun _ => ⟨_, h⟩⟩

theorem Timeable.of_sameCommitted (h : t.Timeable nl inputs c) (hsame : SameCommitted t t') :
    t'.Timeable nl inputs c := by
  rw [Timeable, hsame.changes_eq]
  exact h

/-- **One connection can be timed** for the pending move. -/
theorem exists_propose (ht : t.IsFor nl) (hnl : nl.Numbered) (hc : nl.HasConnection c.1 c.2)
    (htimeable : t.Timeable nl inputs c) :
    ∃ t' change, t.propose nl inputs c.1 c.2 = .ok (t', change) := by
  obtain ⟨⟨delay, hdelay⟩, htimed⟩ := htimeable
  obtain ⟨old, hold⟩ := ht.exists_committed hc
  by_cases hsame : (delay == old.delay) = true
  · have hstep : t.propose nl inputs c.1 c.2 = .ok (t, zero) := by
      refine (propose_eq_ok ht hnl hc).2 ⟨delay, old, hdelay, hold, ?_⟩
      rw [if_pos hsame]
      exact ⟨rfl, rfl⟩
    exact ⟨_, _, hstep⟩
  · obtain ⟨timed, htimed⟩ := htimed (by simp [changes_eq hdelay hold, hsame])
    have hstep : t.propose nl inputs c.1 c.2 = .ok ({ t with
        proposed := t.proposed.setIfInBounds (nl.slotOf c.1 c.2) timed
        touched := t.touched.push (nl.slotOf c.1 c.2) }, timed.cost - old.cost) := by
      refine (propose_eq_ok ht hnl hc).2 ⟨delay, old, hdelay, hold, ?_⟩
      rw [if_neg hsame]
      exact ⟨timed, htimed, rfl, rfl⟩
    exact ⟨_, _, hstep⟩

namespace Proposing

theorem start (t : ConnectionTable δ α) (nl : Netlist) (inputs : TimingInputs δ) :
    Proposing t nl inputs [] t zero :=
  ⟨.refl t, by simp, by simp, by simp [Netlist.slotsOf], by simp, fun _ _ => rfl, .nil⟩

/-- **One connection** is timed. -/
theorem single (ht : t.IsFor nl) (hnl : nl.Numbered) (hc : nl.HasConnection c.1 c.2)
    (hstep : t.propose nl inputs c.1 c.2 = .ok (t', change)) :
    Proposing t nl inputs [c] t' change := by
  obtain ⟨delay, old, hdelay, hold, h⟩ := (propose_eq_ok ht hnl hc).1 hstep
  have hhas : ∀ c' ∈ [c], nl.HasConnection c'.1 c'.2 := by simpa using hc
  have hlooked : ∀ c' ∈ [c], ∃ delay, inputs.delay nl c'.1 c'.2 = .ok delay := by
    simpa using ⟨delay, hdelay⟩
  have hchanges := changes_eq hdelay hold
  split at h
  · -- the delay stays the same, and nothing happens
    rename_i hsame
    obtain ⟨rfl, rfl⟩ := h
    have hnone : [c].filter (t.changes nl inputs) = [] := by simp [hchanges, hsame]
    refine ⟨.refl t, hhas, hlooked, by simp [hnone, Netlist.slotsOf], fun c' hc' hdiffers => ?_,
      fun _ _ => rfl, ?_⟩
    · obtain rfl := List.mem_singleton.1 hc'
      rw [hchanges, hsame] at hdiffers
      cases hdiffers
    · rw [hnone]
      exact .nil
  · rename_i hdiffers
    obtain ⟨timed, htimed, rfl, rfl⟩ := h
    have hall : [c].filter (t.changes nl inputs) = [c] := by simp [hchanges, hdiffers]
    refine ⟨⟨rfl, rfl, Array.size_setIfInBounds⟩, hhas, hlooked, ?_, fun c' hc' _ => ?_,
      fun i hi => ?_, ?_⟩
    · simp [hall, Netlist.slotsOf]
    · obtain rfl := List.mem_singleton.1 hc'
      refine ⟨timed, htimed, Array.getElem?_setIfInBounds_self_of_lt ?_⟩
      rw [ht.proposed]
      exact hc.slotOf_lt
    · rw [hall, Netlist.slotsOf, List.map_singleton, List.mem_singleton] at hi
      exact Array.getElem?_setIfInBounds_ne (Ne.symm hi)
    · have hchange : t.changeOf nl inputs c = timed.cost - old.cost := by
        rw [changeOf, costOf_eq htimed, costBefore_eq hold]
      rw [hall, List.map_singleton, hchange]
      exact .single _

/-- **More connections** are timed after the first ones. -/
theorem trans (h : Proposing t₀ nl inputs done t delta)
    (h' : Proposing t nl inputs done' t' change) :
    Proposing t₀ nl inputs (done ++ done') t' (delta + change) := by
  have hchanges := h.same.changes_eq nl inputs
  have hchangeOf := h.same.changeOf_eq nl inputs
  have htouched := h'.touched
  have hproposed := h'.proposed
  have hothers := h'.others
  have hdelta := h'.delta
  rw [hchanges] at htouched hproposed hothers hdelta
  rw [hchangeOf] at hdelta
  refine ⟨h.same.trans h'.same, ?_, ?_, ?_, ?_, ?_, ?_⟩
  · exact fun c hc => (List.mem_append.1 hc).elim (h.has c) (h'.has c)
  · exact fun c hc => (List.mem_append.1 hc).elim (h.looked c) (h'.looked c)
  · rw [htouched, h.touched, List.append_assoc, Netlist.slotsOf, Netlist.slotsOf, Netlist.slotsOf,
      List.filter_append, List.map_append]
  · intro c hc hdiffers
    by_cases hagain : c ∈ done'
    · exact hproposed c hagain hdiffers
    · -- a connection that is not timed again keeps its proposal, since no other one stands there
      have hfirst := (List.mem_append.1 hc).resolve_right hagain
      obtain ⟨timed, htimed, hentry⟩ := h.proposed c hfirst hdiffers
      refine ⟨timed, htimed, (hothers _ fun hslot => ?_).trans hentry⟩
      obtain ⟨c', hc', hslot⟩ := List.mem_map.1 hslot
      have hmem := (List.mem_filter.1 hc').1
      obtain ⟨hnet, hsink⟩ := (h'.has c' hmem).slotOf_inj (h.has c hfirst) hslot
      exact hagain (Prod.ext hnet hsink ▸ hmem)
  · intro i hi
    rw [Netlist.slotsOf, List.filter_append, List.map_append, List.mem_append, not_or] at hi
    rw [hothers i hi.2, h.others i hi.1]
  · rw [List.filter_append, List.map_append]
    exact h.delta.append hdelta

end Proposing

/-! ## Accepting what is proposed -/

omit [CostScalar α] [DelayScalar δ α]

/-- **A commit** replaces the touched timings by the proposed ones. -/
theorem getElem?_commit (hsize : t.proposed.size = t.committed.size) (i : Nat) :
    t.commit.committed[i]? =
      if i ∈ t.touched.toList then t.proposed[i]? else t.committed[i]? := by
  rw [commit, ← Array.foldl_toList]
  generalize t.committed = committed at hsize
  -- one touched position after the other
  induction t.touched.toList generalizing committed with
  | nil => rfl
  | cons slot slots ih =>
    have hstep : ∀ i, (commitSlot t.proposed committed slot)[i]? =
        if i = slot then t.proposed[i]? else committed[i]? := by
      intro i
      rw [commitSlot]
      split
      · rename_i timed hslot
        by_cases hi : slot = i
        · subst hi
          rw [if_pos rfl, hslot, Array.getElem?_setIfInBounds_self_of_lt]
          rw [← hsize]
          exact (Array.getElem?_eq_some_iff.1 hslot).1
        · rw [Array.getElem?_setIfInBounds_ne hi, if_neg (Ne.symm hi)]
      · rename_i hslot
        split
        · -- a position that is not there is not there on either side
          rename_i hi
          subst hi
          rw [Array.getElem?_eq_none_iff] at hslot
          rw [Array.getElem?_eq_none_iff.2 hslot, Array.getElem?_eq_none_iff.2 (hsize ▸ hslot)]
        · rfl
    have hstepSize : t.proposed.size = (commitSlot t.proposed committed slot).size := by
      rw [commitSlot]
      split
      · rw [Array.size_setIfInBounds, hsize]
      · exact hsize
    rw [List.foldl_cons, ih _ hstepSize, hstep]
    by_cases hi : i = slot
    · simp [hi]
    · simp [hi]

section

variable [CostScalar α] [DelayScalar δ α]

namespace Proposing

theorem size (h : Proposing t₀ nl inputs done t delta) (ht : t₀.IsFor nl) :
    t.proposed.size = t.committed.size := by
  have hfor := ht.of_sameCommitted h.same
  rw [hfor.proposed, hfor.committed]

/-- **What changes its delay** is committed at its timing at the new placement. -/
theorem getElem?_commit_of_changes (h : Proposing t₀ nl inputs done t delta) (ht : t₀.IsFor nl)
    (hc : c ∈ done) (hchanges : t₀.changes nl inputs c = true) :
    ∃ timed, inputs.timed nl c = .ok timed ∧
      t.commit.committed[nl.slotOf c.1 c.2]? = some timed := by
  obtain ⟨timed, htimed, hentry⟩ := h.proposed c hc hchanges
  have hslot : nl.slotOf c.1 c.2 ∈ t.touched.toList := by
    rw [h.touched]
    refine List.mem_append_right _ (List.mem_map.2 ⟨c, ?_, rfl⟩)
    exact List.mem_filter.2 ⟨hc, hchanges⟩
  exact ⟨timed, htimed, by rw [getElem?_commit (h.size ht), if_pos hslot, hentry]⟩

/-- **Any other connection** keeps its timing. -/
theorem getElem?_commit_of_notMem (h : Proposing t₀ nl inputs done t delta) (ht : t₀.IsFor nl)
    (htouched : t₀.touched = #[]) (hc : nl.HasConnection c.1 c.2)
    (hnot : c ∉ done.filter (t₀.changes nl inputs)) :
    t.commit.committed[nl.slotOf c.1 c.2]? = t₀.committed[nl.slotOf c.1 c.2]? := by
  have hslot : nl.slotOf c.1 c.2 ∉ t.touched.toList := by
    rw [h.touched, htouched, List.nil_append]
    intro hslot
    obtain ⟨c', hc', heq⟩ := List.mem_map.1 hslot
    -- no other connection stands at this position
    obtain ⟨hnet, hsink⟩ := (h.has c' (List.mem_filter.1 hc').1).slotOf_inj hc heq
    exact hnot (Prod.ext hnet hsink ▸ hc')
  rw [getElem?_commit (h.size ht), if_neg hslot, h.same.committed]

end Proposing

end

end ConnectionTable

end WireCost
