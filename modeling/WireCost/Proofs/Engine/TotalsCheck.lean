import WireCost.Proofs.Engine.Ready
import WireCost.Proofs.Engine.TimedRun

/-! # What a check of the totals replaces

* **`Engine.check_replaces_in_order`** — what a check reports and which totals it replaces, in any
  idle engine whose committed boxes can be costed.
* **`Engine.drift_reported_after_replacing`** — a check that ends in a drift and has replaced the
  other total. -/

namespace WireCost.Engine

variable {δ α : Type} [CostScalar α] [DelayScalar δ α] {e : Engine δ α} {nl : Netlist}
  {timing : Option (TimingInputs δ)}

/-- **A check of the totals replaces one total after the other.** In an idle engine whose committed
boxes can be costed, a check with or without timing always ends, if every connection that counts can
be timed. When it finds no drift it reports nothing, every total that it has checked is within the
tolerance of its recomputation, and it is replaced by that. When it finds a drift it reports one
error with the code of the total, the first that is further off, the box total before the timing
total. A drift of the box total leaves both totals as they are. A drift of the timing total leaves
that one as it is, but the box total has been replaced. -/
theorem check_replaces_in_order (h : e.Checkable nl timing) (totals : Totals α) :
    ∃ box check, e.recomputeBoxCost = .ok box ∧ e.checkTotals nl totals timing = .ok check ∧
      (check.drift = none → check.findings = [] ∧ check.totals.box = box ∧
        e.IsWithinTolerance totals.box box ∧
        (timing = none → check.totals.timing = totals.timing) ∧
        ∀ inputs, timing = some inputs →
          e.recomputeTiming nl inputs = .ok (check.engine, check.totals.timing) ∧
          e.IsWithinTolerance totals.timing check.totals.timing) ∧
      ∀ drift, check.drift = some drift →
        (drift.kind = .box → drift.tracked = totals.box ∧ drift.recomputed = box ∧
          ¬ e.IsWithinTolerance totals.box box ∧
          (∃ f, check.findings = [f] ∧ f.severity = .error ∧ f.code = .boxDrift) ∧
          check.totals = totals ∧ check.engine = e) ∧
        (drift.kind = .timing → drift.tracked = totals.timing ∧
          (∃ inputs, timing = some inputs ∧
            e.recomputeTiming nl inputs = .ok (check.engine, drift.recomputed)) ∧
          e.IsWithinTolerance totals.box box ∧
          ¬ e.IsWithinTolerance totals.timing drift.recomputed ∧
          (∃ f, check.findings = [f] ∧ f.severity = .error ∧ f.code = .timingDrift) ∧
          check.totals = ⟨box, totals.timing⟩) := by
  obtain ⟨box, hbox⟩ := h.exists_recomputeBoxCost
  obtain ⟨check, hcheck⟩ := h.exists_checkTotals totals
  refine ⟨box, check, hbox, hcheck, ?_⟩
  -- the box cost that the check finds is this one
  cases checkTotals_ends.1 hcheck with
  | boxes hbox' hclose =>
    obtain rfl := Except.ok.inj (hbox.symm.trans hbox')
    refine ⟨fun _ => ⟨rfl, rfl, hclose, fun _ => rfl, by simp⟩, by simp⟩
  | both hbox' hclose htiming hcloseTiming =>
    obtain rfl := Except.ok.inj (hbox.symm.trans hbox')
    refine ⟨fun _ => ⟨rfl, rfl, hclose, by simp, ?_⟩, by simp⟩
    rintro _ ⟨⟩
    exact ⟨htiming, hcloseTiming⟩
  | boxDrift hbox' hfar =>
    obtain rfl := Except.ok.inj (hbox.symm.trans hbox')
    refine ⟨by simp, ?_⟩
    rintro drift ⟨⟩
    exact ⟨fun _ => ⟨rfl, rfl, hfar, ⟨_, rfl, rfl, rfl⟩, rfl, rfl⟩, nofun⟩
  | timingDrift hbox' hclose htiming hfar =>
    obtain rfl := Except.ok.inj (hbox.symm.trans hbox')
    refine ⟨by simp, ?_⟩
    rintro drift ⟨⟩
    exact ⟨nofun, fun _ => ⟨rfl, ⟨_, rfl, htiming⟩, hclose, hfar, ⟨_, rfl, rfl, rfl⟩, rfl⟩⟩

end WireCost.Engine

/-! ## A small check -/

namespace WireCost.Sample

/-- Settings with which totals may be off by half. -/
def loose : CostSettings Rat := ⟨1, 0, .auto, 1 / 2⟩

/-- The new engine with these settings. Its box costs four. -/
def tolerant : Engine Rat Rat := (result (start netlist loose) (by decide +kernel)).1

theorem countedConnections_netlist : netlist.countedConnections = [(⟨0⟩, 0)] := by decide +kernel

/-- The one connection of the netlist has a delay and a criticality. -/
theorem serves_netlist : timing.Serves netlist where
  delay c hc := by
    obtain rfl := List.mem_singleton.1 (countedConnections_netlist ▸ hc)
    exact ⟨_, eq_ok_result (by decide +kernel)⟩
  criticality c hc := by
    obtain rfl := List.mem_singleton.1 (countedConnections_netlist ▸ hc)
    exact ⟨_, eq_ok_result (by decide +kernel)⟩

theorem checkable_tolerant : tolerant.Checkable netlist (some timing) := by
  have hnew : start netlist loose = .ok (tolerant, _) := eq_ok_result (by decide +kernel)
  have hrevised : Session.Revised ⟨netlist, tolerant, none⟩ :=
    .reached (Session.reached_ofDevice built_netlist (ofDevice_of_start hnew))
  exact hrevised.sound.steady.checkable fun inputs hin => Option.some.inj hin ▸ serves_netlist

/-- The same engine with the connection timed again, and the total of five halves. -/
def retimed : Engine Rat Rat × Rat :=
  result (tolerant.recomputeTiming netlist timing) (by decide +kernel)

theorem recomputeTiming_tolerant :
    tolerant.recomputeTiming netlist timing = .ok (retimed.1, 5 / 2) := by
  have htotal : retimed.2 = 5 / 2 := by decide +kernel
  rw [← htotal]
  exact eq_ok_result (by decide +kernel)

theorem recomputeBoxCost_tolerant : tolerant.recomputeBoxCost = .ok 4 := by decide +kernel

/-- Four is close enough to five, -/
theorem close_box : tolerant.IsWithinTolerance 5 4 := by
  rw [Engine.IsWithinTolerance]
  decide +kernel

/-- but five halves are too far from ten. -/
theorem far_timing : ¬ tolerant.IsWithinTolerance 10 (5 / 2) := by
  rw [Engine.IsWithinTolerance]
  decide +kernel

end WireCost.Sample

namespace WireCost.Engine

/-- In the small check, a box total of five is replaced by four, and the timing total of ten has
drifted. -/
theorem check_replaces_in_order_small : ∃ check,
    Sample.tolerant.checkTotals Sample.netlist ⟨5, 10⟩ (some Sample.timing) = .ok check ∧
      (∃ f, check.findings = [f] ∧ f.code = .timingDrift) ∧ check.totals = ⟨4, 10⟩ := by
  obtain ⟨box, check, hbox, hcheck, hnone, hsome⟩ :=
    check_replaces_in_order Sample.checkable_tolerant ⟨5, 10⟩
  obtain rfl := Except.ok.inj (hbox.symm.trans Sample.recomputeBoxCost_tolerant)
  refine ⟨check, hcheck, ?_⟩
  cases hdrift : check.drift with
  | none =>
    -- without a drift the timing total would be close enough
    obtain ⟨-, -, -, -, htiming⟩ := hnone hdrift
    obtain ⟨hrun, hclose⟩ := htiming _ rfl
    rw [Sample.recomputeTiming_tolerant] at hrun
    obtain ⟨-, htotal⟩ := Prod.mk.inj (Except.ok.inj hrun)
    rw [← htotal] at hclose
    exact absurd hclose Sample.far_timing
  | some drift =>
    obtain ⟨hboxDrift, htimingDrift⟩ := hsome drift hdrift
    cases hkind : drift.kind with
    | box =>
      obtain ⟨-, -, hfar, -⟩ := hboxDrift hkind
      exact absurd Sample.close_box hfar
    | timing =>
      obtain ⟨-, -, -, -, ⟨f, hfindings, -, hcode⟩, htotals⟩ := htimingDrift hkind
      exact ⟨⟨f, hfindings, hcode⟩, htotals⟩

/-- **A drift is reported although a total has been replaced:** the tracked box total was five. -/
theorem drift_reported_after_replacing : Sample.tolerant.pending = false ∧
    ∃ check drift, Sample.tolerant.checkTotals Sample.netlist ⟨5, 10⟩ (some Sample.timing) =
      .ok check ∧ check.drift = some drift ∧ drift.kind = .timing ∧ check.totals.box ≠ 5 := by
  refine ⟨by decide +kernel, _, _, checkTotals_ends.2 (.timingDrift
    Sample.recomputeBoxCost_tolerant Sample.close_box Sample.recomputeTiming_tolerant
    Sample.far_timing), rfl, rfl, ?_⟩
  decide +kernel

end WireCost.Engine
