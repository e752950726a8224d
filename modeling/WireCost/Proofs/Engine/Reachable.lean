import WireCost.Proofs.Engine.Accounting
import WireCost.Proofs.Engine.Recompute
import WireCost.Proofs.Engine.Verify
import WireCost.Proofs.Netlist.Built
import WireCost.Proofs.Netlist.Relocate
import WireCost.Proofs.Scalar

/-! # Reachable engines

* **`Engine.Operation`** — everything that can be asked of an engine; **`Operation.run`** does it.
* **`Engine.Reachable`** — the engines that operations lead to from a new one, in any order and on
  any netlists.
* **`Engine.Orderly`** — the marks of a pending move are exactly on the nets that it touches, and
  between two moves nothing is marked.
* **`Engine.Reachable.orderly`** — every reachable engine is orderly. -/

namespace WireCost.Engine

variable {δ α : Type}

/-! ## Operations -/

/-- What can be asked of an engine. -/
inductive Operation (δ α : Type) where
  | evaluate (nl : Netlist) (m : Move) (timing : Option (TimingInputs δ))
  | commit
  | rollback
  | rebuild (nl : Netlist) (withLength : Bool)
  | recomputeBoxCost
  | recomputeTiming (nl : Netlist) (inputs : TimingInputs δ)
  | checkTotals (nl : Netlist) (totals : Totals α) (timing : Option (TimingInputs δ))
  | verify (nl : Netlist)

/-- What an operation answers. -/
inductive Answer (α : Type) where
  | done
  | outcome (o : Outcome α)
  | report (r : CostReport α) (findings : List (Finding α))
  | total (cost : α)
  | totals (t : Totals α) (drift : Option (Drift α)) (findings : List (Finding α))
  | mismatch (found : Option (Mismatch α))

variable [CostScalar α] [DelayScalar δ α]

/-- Does what is asked. -/
def Operation.run (e : Engine δ α) : Operation δ α → Checked (Engine δ α × Answer α)
  | .evaluate nl m timing => do
    let (e, o) ← e.evaluate nl m timing
    .ok (e, .outcome o)
  | .commit => do .ok (← e.commit, .done)
  | .rollback => do .ok (← e.rollback, .done)
  | .rebuild nl withLength => do
    let (e, report, findings) ← e.rebuild nl withLength
    .ok (e, .report report findings)
  | .recomputeBoxCost => do .ok (e, .total (← e.recomputeBoxCost))
  | .recomputeTiming nl inputs => do
    let (e, cost) ← e.recomputeTiming nl inputs
    .ok (e, .total cost)
  | .checkTotals nl totals timing => do
    let check ← e.checkTotals nl totals timing
    .ok (check.engine, .totals check.totals check.drift check.findings)
  | .verify nl => do
    let (e, found) ← e.verify nl
    .ok (e, .mismatch found)

/-- **Reachable engines:** the new ones, and those that an operation leaves behind. -/
inductive Reachable : Engine δ α → Prop where
  | new {nl : Netlist} {device : Device} {settings : CostSettings α} {e : Engine δ α}
      {findings : List (Finding α)} (h : ofDevice nl device settings = .ok (.ok (e, findings))) :
      Reachable e
  | step {e e' : Engine δ α} {op : Operation δ α} {answer : Answer α} (he : Reachable e)
      (h : op.run e = .ok (e', answer)) : Reachable e'

/-! ## Order -/

/-- **The marks are in order:** while a move is pending they are exactly on the nets that it
touches, and between two moves nothing is marked. -/
structure Orderly (e : Engine δ α) : Prop where
  committedSize : e.geometry.committed.size = e.nets.size
  proposedSize : e.geometry.proposed.size = e.nets.size
  timingSize : e.connections.proposed.size = e.connections.committed.size
  marked : e.pending = true → ∀ (i : Nat) (s : NetState α), e.nets[i]? = some s →
    i ∈ e.affected.map NetId.toNat → s.proposed.isSome ∧ s.update ≠ .untouched
  unmarked : ∀ (i : Nat) (s : NetState α), e.nets[i]? = some s →
    (e.pending = true → i ∉ e.affected.map NetId.toNat) →
    s.proposed = none ∧ s.update = .untouched
  listed : e.pending = true → e.affected.Nodup ∧ ∀ n ∈ e.affected, n.toNat < e.nets.size
  connections : e.pending = false → e.connections.touched = #[]

variable {e e' : Engine δ α} {nl : Netlist} {m : Move} {timing : Option (TimingInputs δ)}
  {o : Outcome α}

omit [CostScalar α] [DelayScalar δ α] in
/-- Between two moves, an orderly engine is idle. -/
theorem Orderly.idle (h : e.Orderly) (hpending : e.pending = false) : e.Idle where
  pending := hpending
  nets := fun i s hs => h.unmarked i s hs fun hp => by simp [hpending] at hp
  connections := h.connections hpending

/-- What an evaluation of an orderly engine leaves behind. -/
theorem Orderly.evaluated (h : e.Orderly) (heval : e.evaluate nl m timing = .ok (e', o)) :
    Evaluated e nl m e' o :=
  evaluated_of_evaluate (h.idle (evaluate_eq_ok.1 heval).1) heval

theorem Orderly.evaluate (h : e.Orderly) (heval : e.evaluate nl m timing = .ok (e', o)) :
    e'.Orderly := by
  have hidle := h.idle (evaluate_eq_ok.1 heval).1
  have hdone := h.evaluated heval
  refine ⟨?_, ?_, ?_, ?_, ?_, ?_, ?_⟩
  · rw [hdone.same.geometries, hdone.same.nets_size, h.committedSize]
  · rw [hdone.same.size, hdone.same.nets_size, h.proposedSize]
  · rw [hdone.same.timings.size, hdone.same.timings.committed, h.timingSize]
  · intro _ i s hs hi
    obtain ⟨n, hn, rfl⟩ := List.mem_map.1 hi
    -- a touched net has been costed, so it carries a proposed cost and a mark
    obtain ⟨g, s', cost, -, hs', hproposed, hupdate⟩ := hdone.costed n hn
    obtain rfl : s = s' := Option.some.inj (hs.symm.trans hs')
    exact ⟨by rw [hproposed]; rfl, hupdate⟩
  · intro i s hs hi
    -- any other net is as before the evaluation, when nothing was marked
    rw [hdone.nets i (hi hdone.pending)] at hs
    exact hidle.nets i s hs
  · intro _
    refine ⟨by rw [hdone.affected]; exact nodup_touchedNets .., fun n hn => ?_⟩
    obtain ⟨_, s, _, -, hs, -⟩ := hdone.costed n hn
    exact (Array.getElem?_eq_some_iff.1 hs).1
  · intro hpending
    rw [hdone.pending] at hpending
    cases hpending

omit [CostScalar α] [DelayScalar δ α] in
/-- What a commit of an orderly engine does. -/
theorem Orderly.accepted (h : e.Orderly) (hcommit : e.commit = .ok e') : Accepted e e' :=
  accepted_of_commit (h.proposedSize.trans h.committedSize.symm) hcommit

omit [CostScalar α] [DelayScalar δ α] in
/-- **A pending move can be committed.** -/
theorem Orderly.exists_commit (h : e.Orderly) (hpending : e.pending = true) :
    ∃ e', e.commit = .ok e' := by
  refine Engine.exists_commit (h.proposedSize.trans h.committedSize.symm) hpending fun n hn => ?_
  rw [h.proposedSize]
  exact (h.listed hpending).2 n hn

omit [CostScalar α] [DelayScalar δ α] in
theorem Orderly.commit (h : e.Orderly) (hcommit : e.commit = .ok e') : e'.Orderly := by
  have hdone := h.accepted hcommit
  have hidle := hdone.idle
  have hproposed : e'.geometry.proposed = e.geometry.proposed := by rw [hdone.rest]
  have htimings := hdone.connections
  refine ⟨?_, ?_, ?_, ?_, ?_, ?_, ?_⟩
  · rw [hdone.geometriesSize, hdone.netsSize, h.committedSize]
  · rw [hproposed, hdone.netsSize, h.proposedSize]
  · rw [htimings]
    exact h.timingSize.trans (ConnectionTable.size_commit e.connections).symm
  · intro hp
    rw [hidle] at hp
    cases hp
  · intro i s hs _
    rw [hdone.nets] at hs
    split at hs
    · obtain ⟨s₀, -, rfl⟩ := Option.map_eq_some_iff.1 hs
      exact ⟨rfl, rfl⟩
    · rename_i hi
      exact h.unmarked i s hs fun _ => hi
  · intro hp
    rw [hidle] at hp
    cases hp
  · intro _
    rw [htimings]
    rfl

omit [CostScalar α] [DelayScalar δ α] in
theorem Orderly.rollback (h : e.Orderly) (hrollback : e.rollback = .ok e') : e'.Orderly := by
  obtain ⟨hpending, rfl⟩ := rollback_eq_ok.1 hrollback
  -- the loop over the listed nets discards exactly their marks
  have hnets := getElem?_foldl_updateNet (f := NetState.discard) (fun _ => rfl) e.affected e
  have hsize : (e.affected.foldl (fun e n => e.updateNet n NetState.discard) e).nets.size =
      e.nets.size := by
    refine List.foldlRecOn (motive := fun e' : Engine δ α => e'.nets.size = e.nets.size)
      e.affected _ rfl ?_
    intro e₁ he₁ n _
    exact Array.size_modify.trans he₁
  refine ⟨h.committedSize.trans hsize.symm, h.proposedSize.trans hsize.symm, h.timingSize, ?_, ?_,
    ?_, fun _ => rfl⟩
  · intro hp
    cases hp
  · intro i s hs _
    rw [hnets] at hs
    split at hs
    · obtain ⟨s₀, -, rfl⟩ := Option.map_eq_some_iff.1 hs
      exact ⟨rfl, rfl⟩
    · rename_i hi
      exact h.unmarked i s hs fun _ => hi
  · intro hp
    cases hp

omit [DelayScalar δ α] in
/-- A rebuild leaves the setup alone. -/
theorem Rebuilding.setup {ns : List NetId} (h : Rebuilding e nl ns e') : SameSetup e e' := by
  rw [h.rest]
  exact ⟨rfl, rfl, rfl, rfl⟩

omit [DelayScalar δ α] in
/-- An operation that looks at the pins again changes costs and committed geometries, not the
marks. -/
theorem Orderly.rebuilding {ns : List NetId} (h : e.Orderly) (hidle : e.pending = false)
    (hdone : Rebuilding e nl ns e') : e'.Orderly := by
  have hpending : e'.pending = false := by rw [hdone.rest, hidle]
  have hproposed : e'.geometry.proposed = e.geometry.proposed := by rw [hdone.rest]
  have htimings : e'.connections = e.connections := by rw [hdone.rest]
  refine ⟨?_, ?_, ?_, ?_, ?_, ?_, ?_⟩
  · rw [hdone.size, hdone.netsSize, h.committedSize]
  · rw [hproposed, hdone.netsSize, h.proposedSize]
  · rw [htimings, h.timingSize]
  · intro hp
    rw [hpending] at hp
    cases hp
  · intro i s hs _
    have hlt : i < e.nets.size := hdone.netsSize ▸ (Array.getElem?_eq_some_iff.1 hs).1
    have hold := Array.getElem?_eq_getElem hlt
    have hclean := (h.idle hidle).nets i _ hold
    -- a rebuilt net keeps its marks, and there were none
    by_cases hi : i ∈ ns.map NetId.toNat
    · obtain ⟨n, hn, rfl⟩ := List.mem_map.1 hi
      obtain ⟨s', hs', hrebuilt⟩ := hdone.rebuilt n hn _ hold
      obtain rfl : s = s' := Option.some.inj (hs.symm.trans hs')
      cases hrebuilt with
      | ignored => exact hclean
      | counted => exact hclean
    · obtain rfl := Option.some.inj (hs.symm.trans ((hdone.nets i hi).trans hold))
      exact hclean
  · intro hp
    rw [hpending] at hp
    cases hp
  · intro _
    rw [htimings]
    exact h.connections hidle

/-- Two tables that differ in the committed timings only. -/
def OnlyCommitted (t t' : ConnectionTable δ α) : Prop :=
  t' = { t with committed := t'.committed } ∧ t'.committed.size = t.committed.size

/-- Timing all connections changes the committed timings only. -/
theorem onlyCommitted_recompute {t t' : ConnectionTable δ α} {inputs : TimingInputs δ} {total : α}
    (h : t.recompute nl inputs = .ok (t', total)) : OnlyCommitted t t' := by
  -- the loop over the nets, and inside it the loop over the sinks of a net, which write committed
  -- timings only
  refine Checked.foldlM_induct (c := (t', total)) (fun _ s => OnlyCommitted t s.1) ⟨rfl, rfl⟩ ?_ h
  intro _ n _ s s' _ hs hnet
  simp only [ConnectionTable.recomputeNet, Checked.bind_eq_ok] at hnet
  obtain ⟨net, -, hnet⟩ := hnet
  split at hnet
  · cases hnet
    exact hs
  · refine Checked.foldlM_induct (fun _ s => OnlyCommitted t s.1) hs ?_ hnet
    rintro _ sink _ ⟨t₁, total₁⟩ s₂ _ ⟨hrest, hsize⟩ hsink
    simp only [ConnectionTable.recomputeOne, Checked.bind_eq_ok, Except.ok.injEq] at hsink
    obtain ⟨slot, -, delay, -, timed, -, _, -, rfl⟩ := hsink
    dsimp only at hrest hsize
    refine ⟨?_, Array.size_setIfInBounds.trans hsize⟩
    rw [hrest]

theorem Orderly.recomputeTiming {inputs : TimingInputs δ} {total : α} (h : e.Orderly)
    (hrun : e.recomputeTiming nl inputs = .ok (e', total)) : e'.Orderly := by
  obtain ⟨-, t, hrecompute, rfl⟩ := recomputeTiming_eq_ok.1 hrun
  obtain ⟨hrest, hsize⟩ := onlyCommitted_recompute hrecompute
  have hproposed : t.proposed = e.connections.proposed := by rw [hrest]
  have htouched : t.touched = e.connections.touched := by rw [hrest]
  exact ⟨h.committedSize, h.proposedSize, by dsimp only; rw [hproposed, hsize, h.timingSize],
    h.marked, h.unmarked, h.listed, by dsimp only; rw [htouched]; exact h.connections⟩

omit [DelayScalar δ α] in
theorem Orderly.verify {found : Option (Mismatch α)} (h : e.Orderly)
    (hrun : e.verify nl = .ok (e', found)) : e'.Orderly := by
  -- the proposed geometries carry no marks
  obtain ⟨hrest, hsize⟩ := frame_of_verify hrun
  rw [hrest]
  exact ⟨h.committedSize, hsize.trans h.proposedSize, h.timingSize, h.marked, h.unmarked, h.listed,
    h.connections⟩

theorem Orderly.checkTotals {totals : Totals α} {check : TotalsCheck δ α} (h : e.Orderly)
    (hrun : e.checkTotals nl totals timing = .ok check) : check.engine.Orderly := by
  obtain heq | ⟨inputs, total, -, htiming⟩ := (checkTotals_ends.1 hrun).engine
  · rwa [heq]
  · exact h.recomputeTiming htiming

/-- An engine that has not looked at any net is orderly. -/
theorem orderly_unmeasured (interior : Interior) (factors : ChannelFactors α) (form : BoxForm)
    (options : EngineOptions α) (nl : Netlist) :
    (unmeasured interior factors form options nl : Engine δ α).Orderly := by
  refine ⟨by simp, by simp [unmeasured], by simp [unmeasured, ConnectionTable.blank], ?_, ?_, ?_,
    fun _ => rfl⟩
  · intro hp
    cases hp
  · intro i s hs _
    rw [unmeasured, Array.getElem?_replicate] at hs
    split at hs
    · cases hs
      exact ⟨rfl, rfl⟩
    · cases hs
  · intro hp
    cases hp

/-- A new engine is orderly. -/
theorem orderly_ofFactors {interior : Interior} {factors : ChannelFactors α} {form : BoxForm}
    {options : EngineOptions α} (h : ofFactors interior factors form options nl = .ok e) :
    e.Orderly :=
  (orderly_unmeasured interior factors form options nl).rebuilding rfl (rebuilding_ofFactors h)

/-- A new engine for a device is orderly. -/
theorem orderly_ofDevice {device : Device} {settings : CostSettings α}
    {findings : List (Finding α)} (h : ofDevice nl device settings = .ok (.ok (e, findings))) :
    e.Orderly := by
  obtain ⟨_, _, _, -, -, hnew, -⟩ := ofDevice_eq_ok.1 h
  exact orderly_ofFactors hnew

/-- **Every operation keeps the marks in order.** -/
theorem Orderly.run {op : Operation δ α} {answer : Answer α} (h : e.Orderly)
    (hrun : op.run e = .ok (e', answer)) : e'.Orderly := by
  cases op with
  | evaluate nl m timing =>
    obtain ⟨⟨e₁, o⟩, heval, heq⟩ := Checked.bind_eq_ok.1 hrun
    cases heq
    exact h.evaluate heval
  | commit =>
    obtain ⟨e₁, hcommit, heq⟩ := Checked.bind_eq_ok.1 hrun
    cases heq
    exact h.commit hcommit
  | rollback =>
    obtain ⟨e₁, hrollback, heq⟩ := Checked.bind_eq_ok.1 hrun
    cases heq
    exact h.rollback hrollback
  | rebuild nl withLength =>
    obtain ⟨⟨e₁, report⟩, hrebuild, heq⟩ := Checked.bind_eq_ok.1 hrun
    cases heq
    exact h.rebuilding (rebuild_eq_ok.1 hrebuild).1 (rebuilding_of_rebuild hrebuild)
  | recomputeBoxCost =>
    obtain ⟨cost, -, heq⟩ := Checked.bind_eq_ok.1 hrun
    cases heq
    exact h
  | recomputeTiming nl inputs =>
    obtain ⟨⟨e₁, cost⟩, htiming, heq⟩ := Checked.bind_eq_ok.1 hrun
    cases heq
    exact h.recomputeTiming htiming
  | checkTotals nl totals timing =>
    obtain ⟨check, hcheck, heq⟩ := Checked.bind_eq_ok.1 hrun
    cases heq
    exact h.checkTotals hcheck
  | verify nl =>
    obtain ⟨⟨e₁, found⟩, hverify, heq⟩ := Checked.bind_eq_ok.1 hrun
    cases heq
    exact h.verify hverify

/-- **Every reachable engine is orderly.** -/
theorem Reachable.orderly (h : e.Reachable) : e.Orderly := by
  induction h with
  | new h => exact orderly_ofDevice h
  | step _ hrun ih => exact ih.run hrun

end WireCost.Engine

/-! ## A small engine -/

namespace WireCost.Sample

/-- A device with two columns and two rows inside the perimeter. -/
def device : Device := ⟨4, 4, 1, [1, 1, 1, 1], [1, 1, 1, 1]⟩

/-- Settings that never scan a net for being small. -/
def settings : CostSettings Rat := ⟨1, 0, .auto, 0⟩

/-- The second block moves one column to the left. -/
def move : Move := ⟨[⟨⟨1⟩, ⟨2, 2, 0, 0⟩, ⟨1, 2, 0, 0⟩⟩]⟩

/-- The netlist after the move. -/
def placed : Netlist := result (netlist.apply move) (by decide +kernel)

theorem apply_eq : netlist.apply move = .ok placed := eq_ok_result (by decide +kernel)

theorem fits_move : move.Fits netlist where
  distinct := by decide
  starts := by
    intro r hr
    obtain rfl := List.mem_singleton.1 hr
    exact ⟨_, Array.getElem?_eq_getElem (by decide +kernel), by decide +kernel⟩

/-- A new engine, on a device that can be used. -/
def start (nl : Netlist) (settings : CostSettings Rat) :
    Checked (Engine Rat Rat × List (Finding Rat)) := do
  match ← Engine.ofDevice nl device settings with
  | .ok new => .ok new
  | .error _ => .error .emptyRange

theorem ofDevice_of_start {nl : Netlist} {settings : CostSettings Rat}
    {new : Engine Rat Rat × List (Finding Rat)} (h : start nl settings = .ok new) :
    Engine.ofDevice nl device settings = .ok (.ok new) := by
  obtain ⟨new?, hnew, h⟩ := Checked.bind_eq_ok.1 h
  cases new? with
  | error defect => cases h
  | ok new' =>
    cases h
    exact hnew

/-- The new engine for the netlist. -/
def engine : Engine Rat Rat := (result (start netlist settings) (by decide +kernel)).1

theorem engine_eq : ∃ findings,
    Engine.ofDevice netlist device settings = .ok (.ok (engine, findings)) :=
  ⟨_, ofDevice_of_start (eq_ok_result (by decide +kernel))⟩

/-- The engine with the move pending, and what the move changes. -/
def evaluated : Engine Rat Rat × Outcome Rat :=
  result (engine.evaluate placed move none) (by decide +kernel)

theorem evaluate_eq :
    engine.evaluate placed move none = .ok (evaluated.1, evaluated.2) :=
  eq_ok_result (by decide +kernel)

theorem reachable_engine : engine.Reachable := by
  obtain ⟨findings, h⟩ := engine_eq
  exact .new h

end WireCost.Sample
