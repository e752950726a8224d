import WireCost.Proofs.Engine.Retiming
import WireCost.Proofs.Engine.Search

/-! # Engines between two moves

* **`Engine.Steady`** — an engine that is orderly and idle, tracks the placement, charges nothing
  for ignored nets and has a place for the timing of every connection.
* **`Engine.steady_ofFactors`** — a new engine is steady.
* **`Engine.Steady.accept`**, **`Engine.Steady.reject`** — trying a move keeps that up.
* **`Engine.Steady.rebuild`**, **`Engine.Steady.recomputeTiming`**, **`Engine.Steady.checkTotals`**,
  **`Engine.Steady.verify`** — so does every recomputation and verification. -/

namespace WireCost.Engine

variable {δ α : Type} [CostScalar α] {e e' e'' : Engine δ α} {nl placed : Netlist} {m : Move}

/-- **An engine between two moves:** it is orderly and idle, tracks the placement, charges nothing
for ignored nets, and has a place for the timing of every connection. -/
structure Steady (nl : Netlist) (e : Engine δ α) : Prop where
  orderly : e.Orderly
  idle : e.pending = false
  tracks : e.Tracks nl
  ignored : ∀ (i : Nat) (s : NetState α), e.nets[i]? = some s → s.ignored = true → s.cost = zero
  timings : e.connections.IsFor nl
  room : GeometryTable.requireRoom e.form nl.nets.size e.interior.layers = .ok ()

/-- A steady engine stays one if only leftovers change. -/
theorem Steady.of_alike (h : e.Steady nl) (halike : Alike e e') (horderly : e'.Orderly) :
    e'.Steady nl where
  orderly := horderly
  idle := halike.pending.trans h.idle
  tracks := halike.tracks h.tracks
  ignored := by
    rw [halike.nets]
    exact h.ignored
  timings :=
    ⟨halike.timings.offsets.trans h.timings.offsets,
      by rw [halike.timings.committed, h.timings.committed],
      halike.timings.size.trans h.timings.proposed⟩
  room := by rw [halike.setup.form, halike.setup.interior, h.room]

variable [DelayScalar δ α] {timing : Option (TimingInputs δ)} {o : Outcome α}

/-! ## New engines -/

omit [DelayScalar δ α] in
/-- After a rebuild ignored nets cost nothing. -/
theorem Rebuilding.ignored (h : Rebuilding e nl e.netIds e') (hroom : e.nets.size ≤ Word.size32)
    (i : Nat) (s' : NetState α) (hs' : e'.nets[i]? = some s') (hignored : s'.ignored = true) :
    s'.cost = zero := by
  obtain ⟨n, s, s₁, rfl, -, hs₁, hrebuilt⟩ :=
    h.net hroom (h.netsSize ▸ (Array.getElem?_eq_some_iff.1 hs').1)
  obtain rfl := Option.some.inj (hs'.symm.trans hs₁)
  cases hrebuilt with
  | ignored => rfl
  | counted => cases hignored

/-- **A new engine is steady.** -/
theorem steady_ofFactors {interior : Interior} {factors : ChannelFactors α} {form : BoxForm}
    {options : EngineOptions α} (hnl : nl.Consistent) (hlayers : interior.layers ≤ Word.size64)
    (h : ofFactors interior factors form options nl = .ok e) : e.Steady nl := by
  have hrebuilding := rebuilding_ofFactors h
  have htimings : e.connections = .blank nl := congrArg Engine.connections hrebuilding.rest
  refine ⟨orderly_ofFactors h, idle_ofFactors h, tracks_ofFactors hnl hlayers h,
    hrebuilding.ignored ?_, ?_, room_ofFactors h⟩
  · rw [size_nets_unmeasured]
    exact hnl.nets.room.le
  · rw [htimings]
    exact ConnectionTable.isFor_blank nl

/-! ## Trying a move -/

/-- **An accepted move** leaves a steady engine behind, at the new placement. -/
theorem Steady.accept (h : e.Steady nl) (hm : m.Fits nl) (happly : nl.apply m = .ok placed)
    (heval : e.evaluate placed m timing = .ok (e', o)) (hcommit : e'.commit = .ok e'') :
    e''.Steady placed ∧ SameSetup e e'' := by
  have hdone := h.orderly.evaluated heval
  have horderly := h.orderly.evaluate heval
  have haccepted := horderly.accepted hcommit
  have hsetup := hdone.same.setup.trans haccepted.setup
  obtain ⟨-, hnets⟩ := Netlist.apply_pins_nets hm happly
  refine ⟨⟨horderly.commit hcommit, haccepted.idle, h.tracks.commit h.orderly hm happly heval
    hcommit, ?_, ?_, ?_⟩, hsetup⟩
  · intro i s'' hs'' hflag
    obtain ⟨s', hs', hkept⟩ := haccepted.net hs''
    obtain ⟨s, hs, hcost, hignored⟩ := hdone.same.net hs'
    -- a net that is ignored is none of those that the move touches
    have hnot : i ∉ e'.affected.map NetId.toNat := by
      rw [hdone.affected]
      intro hi
      have hcounted := ignored_of_touched hi hs
      rw [← hignored, ← hkept, hflag] at hcounted
      cases hcounted
    rw [haccepted.nets, if_neg hnot, hs'] at hs''
    obtain rfl := Option.some.inj hs''
    rw [hcost]
    exact h.ignored i s hs (hignored ▸ hflag)
  · rw [haccepted.connections]
    exact ((h.timings.of_sameCommitted hdone.same.timings).commit).congr hnets
  · rw [hsetup.form, hsetup.interior, hnets, h.room]

/-- **A rejected move** leaves a steady engine behind, at the old placement. -/
theorem Steady.reject (h : e.Steady nl) (heval : e.evaluate placed m timing = .ok (e', o))
    (hrollback : e'.rollback = .ok e'') : e''.Steady nl ∧ SameSetup e e'' := by
  have halike := (h.orderly.twins_of_rollback heval hrollback).alike
  exact ⟨h.of_alike halike ((h.orderly.evaluate heval).rollback hrollback), halike.setup⟩

/-! ## Recomputations and verifications -/

omit [DelayScalar δ α] in
/-- **A rebuild** leaves a steady engine behind, even if since the last one blocks have been placed
elsewhere or other nets are ignored. -/
theorem Steady.rebuild_of_sameWiring {nl' : Netlist} {withLength : Bool}
    {report : CostReport α × List (Finding α)} (h : e.Steady nl) (hwiring : nl.SameWiring nl')
    (hrun : e.rebuild nl' withLength = .ok (e', report)) : e'.Steady nl' ∧ SameSetup e e' := by
  have hrebuilding := rebuilding_of_rebuild hrun
  have hrest := hrebuilding.rest
  have hsetup := hrebuilding.setup
  have htimings : e'.connections = e.connections := by rw [hrest]
  have hsize : nl'.nets.size = nl.nets.size := by simpa using congrArg Array.size hwiring.nets
  refine ⟨⟨h.orderly.rebuilding h.idle hrebuilding, ?_, tracks_of_rebuilding
    (hwiring.consistent h.tracks.consistent) (h.tracks.size.trans hsize.symm) h.tracks.layers
    h.tracks.room hrebuilding, hrebuilding.ignored h.tracks.size_le, ?_, ?_⟩, hsetup⟩
  · rw [hrest, h.idle]
  · rw [htimings]
    exact h.timings.of_offsets hwiring.connectionOffsets_eq
  · rw [hsetup.form, hsetup.interior, hsize, h.room]

omit [DelayScalar δ α] in
/-- **A rebuild** at the same placement leaves a steady engine behind. -/
theorem Steady.rebuild {withLength : Bool} {report : CostReport α × List (Finding α)}
    (h : e.Steady nl) (hrun : e.rebuild nl withLength = .ok (e', report)) :
    e'.Steady nl ∧ SameSetup e e' :=
  h.rebuild_of_sameWiring ⟨rfl, rfl, rfl⟩ hrun

/-- **Timing all connections again** leaves a steady engine behind. -/
theorem Steady.recomputeTiming {inputs : TimingInputs δ} {total : α} (h : e.Steady nl)
    (hrun : e.recomputeTiming nl inputs = .ok (e', total)) : e'.Steady nl ∧ SameSetup e e' := by
  have horderly := h.orderly.recomputeTiming hrun
  obtain ⟨-, t, hrecompute, rfl⟩ := recomputeTiming_eq_ok.1 hrun
  have ht := (ConnectionTable.recomputed_of_recompute h.timings h.tracks.consistent.numbered
    hrecompute).isFor h.timings
  -- tracking a placement is no matter of timings
  have htracks : ({ e with connections := t } : Engine δ α).Tracks nl :=
    ⟨h.tracks.consistent, h.tracks.size, h.tracks.layers, h.tracks.room, h.tracks.ignored,
      fun n net hnet hcounted =>
        let ⟨g, cost, hexact⟩ := h.tracks.exact n net hnet hcounted
        ⟨g, cost, hexact.scan, hexact.costs, hexact.geometry, hexact.state⟩⟩
  exact ⟨⟨horderly, h.idle, htracks, h.ignored, ht, h.room⟩, rfl, rfl, rfl, rfl⟩

/-- **Checking the totals** leaves a steady engine behind. -/
theorem Steady.checkTotals {totals : Totals α} {check : TotalsCheck δ α} (h : e.Steady nl)
    (hrun : e.checkTotals nl totals timing = .ok check) :
    check.engine.Steady nl ∧ SameSetup e check.engine := by
  obtain heq | ⟨inputs, total, -, htiming⟩ := (checkTotals_ends.1 hrun).engine
  · rw [heq]
    exact ⟨h, rfl, rfl, rfl, rfl⟩
  · exact h.recomputeTiming htiming

omit [DelayScalar δ α] in
/-- **A verification** leaves a steady engine behind. -/
theorem Steady.verify {found : Option (Mismatch α)} (h : e.Steady nl)
    (hrun : e.verify nl = .ok (e', found)) : e'.Steady nl ∧ SameSetup e e' := by
  have halike := (h.orderly.twins_of_verify h.idle hrun).alike
  exact ⟨h.of_alike halike (h.orderly.verify hrun), halike.setup⟩

end WireCost.Engine
