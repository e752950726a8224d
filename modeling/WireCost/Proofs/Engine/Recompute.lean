import WireCost.Engine.Audit
import WireCost.Proofs.Checked

/-! # Recomputed totals

A check of the totals recomputes the box total, compares it and replaces the tracked one, and then
does the same with the timing total. When the second comparison fails, the first total has been
replaced already.

* **`Engine.recomputeTiming_eq_ok`** — when all connections can be timed, and what changes.
* **`Engine.CheckEnds`** — the four ways in which a check of the totals ends.
* **`Engine.checkTotals_ends`** — it ends in one of them.
* **`Engine.CheckEnds.engine`** — a check changes nothing but the timings. -/

namespace WireCost.Engine

variable {δ α : Type} [CostScalar α] [DelayScalar δ α] {e e' : Engine δ α} {nl : Netlist}

/-! ## Timings -/

/-- Timing all connections again replaces the table of timings. -/
theorem recomputeTiming_eq_ok {inputs : TimingInputs δ} {total : α} :
    e.recomputeTiming nl inputs = .ok (e', total) ↔ e.pending = false ∧ ∃ t,
      e.connections.recompute nl inputs = .ok (t, total) ∧ { e with connections := t } = e' := by
  simp only [Engine.recomputeTiming, Checked.bind_eq_ok, require_eq_ok, Except.ok.injEq,
    Prod.mk.injEq, Bool.not_eq_true]
  constructor
  · rintro ⟨-, hidle, ⟨t, total'⟩, h, rfl, rfl⟩
    exact ⟨hidle, t, h, rfl⟩
  · rintro ⟨hidle, t, h, rfl⟩
    exact ⟨(), hidle, (t, total), h, rfl, rfl⟩

/-- It leaves the options alone. -/
theorem options_recomputeTiming {inputs : TimingInputs δ} {total : α}
    (h : e.recomputeTiming nl inputs = .ok (e', total)) : e'.options = e.options := by
  obtain ⟨-, t, -, rfl⟩ := recomputeTiming_eq_ok.1 h
  rfl

/-! ## Checks -/

/-- A tracked total and its recomputation differ by no more than the tolerance times the tracked
total. -/
def IsWithinTolerance (e : Engine δ α) (tracked recomputed : α) : Prop :=
  CostScalar.magnitude (recomputed - tracked) ≤ tracked * e.options.tolerance

omit [DelayScalar δ α] in
/-- The engine compares totals in this way. -/
theorem isClose_iff {tracked recomputed : α} :
    e.isClose tracked recomputed = true ↔ e.IsWithinTolerance tracked recomputed := by
  rw [isClose, decide_eq_true_iff, IsWithinTolerance]

theorem isClose_recomputeTiming {inputs : TimingInputs δ} {total : α}
    (h : e.recomputeTiming nl inputs = .ok (e', total)) : e'.isClose = e.isClose := by
  funext tracked recomputed
  rw [isClose, isClose, options_recomputeTiming h]

variable {totals : Totals α} {timing : Option (TimingInputs δ)} {check : TotalsCheck δ α}

/-- **The ways in which a check of the totals ends,** with the one finding that it reports,
if any. -/
inductive CheckEnds (e : Engine δ α) (nl : Netlist) (totals : Totals α) :
    Option (TimingInputs δ) → TotalsCheck δ α → Prop where
  /-- The box total is close enough and is replaced; the timing total is not checked. -/
  | boxes {box : α} (hbox : e.recomputeBoxCost = .ok box)
      (hclose : e.IsWithinTolerance totals.box box) :
      CheckEnds e nl totals none ⟨e, ⟨box, totals.timing⟩, none, []⟩
  /-- Both totals are close enough and are replaced. -/
  | both {inputs : TimingInputs δ} {box total : α} {e' : Engine δ α}
      (hbox : e.recomputeBoxCost = .ok box) (hclose : e.IsWithinTolerance totals.box box)
      (htiming : e.recomputeTiming nl inputs = .ok (e', total))
      (hcloseTiming : e.IsWithinTolerance totals.timing total) :
      CheckEnds e nl totals (some inputs) ⟨e', ⟨box, total⟩, none, []⟩
  /-- The box total has drifted. Nothing is replaced. -/
  | boxDrift {timing : Option (TimingInputs δ)} {box : α} (hbox : e.recomputeBoxCost = .ok box)
      (hfar : ¬ e.IsWithinTolerance totals.box box) :
      CheckEnds e nl totals timing ⟨e, totals, some ⟨.box, totals.box, box⟩,
        [.drift ⟨.box, totals.box, box⟩ e.options.tolerance]⟩
  /-- The timing total has drifted. The box total has been replaced by then. -/
  | timingDrift {inputs : TimingInputs δ} {box total : α} {e' : Engine δ α}
      (hbox : e.recomputeBoxCost = .ok box) (hclose : e.IsWithinTolerance totals.box box)
      (htiming : e.recomputeTiming nl inputs = .ok (e', total))
      (hfar : ¬ e.IsWithinTolerance totals.timing total) :
      CheckEnds e nl totals (some inputs) ⟨e', ⟨box, totals.timing⟩,
        some ⟨.timing, totals.timing, total⟩,
        [.drift ⟨.timing, totals.timing, total⟩ e.options.tolerance]⟩

/-- **A check that ends** does so in one of these ways. -/
theorem checkTotals_ends : e.checkTotals nl totals timing = .ok check ↔
    e.CheckEnds nl totals timing check := by
  rw [Engine.checkTotals]
  constructor
  · intro h
    obtain ⟨box, hbox, h⟩ := Checked.bind_eq_ok.1 h
    by_cases hclose : e.IsWithinTolerance totals.box box
    · rw [if_neg (not_not.2 (isClose_iff.2 hclose))] at h
      cases timing with
      | none =>
        cases h
        exact .boxes hbox hclose
      | some inputs =>
        obtain ⟨⟨e', total⟩, htiming, h⟩ := Checked.bind_eq_ok.1 h
        dsimp only at h
        rw [isClose_recomputeTiming htiming] at h
        by_cases hcloseTiming : e.IsWithinTolerance totals.timing total
        · rw [if_neg (not_not.2 (isClose_iff.2 hcloseTiming))] at h
          cases h
          exact .both hbox hclose htiming hcloseTiming
        · rw [if_pos (mt isClose_iff.1 hcloseTiming), drifted, options_recomputeTiming htiming] at h
          cases h
          exact .timingDrift hbox hclose htiming hcloseTiming
    · rw [if_pos (mt isClose_iff.1 hclose)] at h
      cases h
      exact .boxDrift hbox hclose
  · intro h
    cases h with
    | boxes hbox hclose =>
      rw [hbox, Checked.ok_bind, if_neg (not_not.2 (isClose_iff.2 hclose))]
    | both hbox hclose htiming hcloseTiming =>
      rw [hbox, Checked.ok_bind, if_neg (not_not.2 (isClose_iff.2 hclose))]
      dsimp only
      rw [htiming, Checked.ok_bind]
      dsimp only
      rw [isClose_recomputeTiming htiming, if_neg (not_not.2 (isClose_iff.2 hcloseTiming))]
    | boxDrift hbox hfar =>
      rw [hbox, Checked.ok_bind, if_pos (mt isClose_iff.1 hfar)]
      rfl
    | timingDrift hbox hclose htiming hfar =>
      rw [hbox, Checked.ok_bind, if_neg (not_not.2 (isClose_iff.2 hclose))]
      dsimp only
      rw [htiming, Checked.ok_bind]
      dsimp only
      rw [isClose_recomputeTiming htiming, if_pos (mt isClose_iff.1 hfar), drifted,
        options_recomputeTiming htiming]

/-- **A check of the totals** leaves the engine as it is or times all connections again. -/
theorem CheckEnds.engine (h : e.CheckEnds nl totals timing check) : check.engine = e ∨
    ∃ inputs total, timing = some inputs ∧
      e.recomputeTiming nl inputs = .ok (check.engine, total) := by
  cases h with
  | boxes hbox hclose => exact .inl rfl
  | both hbox hclose htiming hcloseTiming => exact .inr ⟨_, _, rfl, htiming⟩
  | boxDrift hbox hfar => exact .inl rfl
  | timingDrift hbox hclose htiming hfar => exact .inr ⟨_, _, rfl, htiming⟩

end WireCost.Engine
