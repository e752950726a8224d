import WireCost.Proofs.ChannelFactors
import WireCost.Proofs.Engine.Rebuild
import WireCost.Proofs.Scalar

/-! # What is told of the channels of a device

* **`Finding.diagnostic_bareSpan`** — the warning about a span without tracks.
* **`Engine.findings_bareSpan`** — a new engine warns of the spans without tracks, and of no others.
* **`ChannelFactors.factor_of_every_span`** — the factors of a device are those of its track counts,
  and there is one warning for each span without tracks.
* **`ChannelFactors.tall_devices_overflow`** — a device that is too tall has no factors at all. -/

namespace WireCost

/-- **The warning about a span without tracks** names its axis and its ends. -/
theorem Finding.diagnostic_bareSpan (b : BareSpan) :
    (Finding.bareSpan b).diagnostic = {
      severity := .warning
      code := ⟨.warning, 101⟩
      message := s!"{b.axis.label} channels {b.low}..={b.high} have no tracks"
      subject := some s!"{b.axis.label}[{b.high}][{b.low}]"
      notes := ["treating the span as a single track"]
      help := [] } := rfl

/-- **A new engine** uses the factors of the device and warns of the spans without tracks. -/
theorem Engine.findings_bareSpan {δ α : Type} [CostScalar α] [DelayScalar δ α] {nl : Netlist}
    {d : Device} {settings : CostSettings α} {f : ChannelFactors α} {bare : List BareSpan}
    {e : Engine δ α} {findings : List (Finding α)}
    (hf : ChannelFactors.ofDevice d settings.exponent = .ok (f, bare))
    (h : Engine.ofDevice nl d settings = .ok (.ok (e, findings))) :
    e.factors = f ∧ (findings.filter fun found => found.code = .bareSpan) = bare.map .bareSpan := by
  obtain ⟨interior, f', bare', -, hf', hnew, rfl⟩ := Engine.ofDevice_eq_ok.1 h
  cases hf.symm.trans hf'
  refine ⟨(Engine.setup_ofFactors hnew).2.1, ?_⟩
  rw [List.filter_append, List.filter_map]
  simp [Function.comp_def, Finding.code, Code.boxForm, Code.bareSpan]

namespace ChannelFactors

variable {α : Type} [CostScalar α]

/-- **The factors of a device,** if there is room for their tables. The factor of a span is the
number of its channels over its tracks, added from left to right, raised to the exponent; where
there are no tracks, they count as one. All spans are looked up at places of their own. There is one
warning for each span without tracks: rows before columns, then by the ends of the spans, then by
their starts. -/
theorem factor_of_every_span (d : Device) (exponent : α)
    (hheight : requireRoom d.height.toNat = .ok ()) (hwidth : requireRoom d.width.toNat = .ok ()) :
    ∃ f bareRows bareColumns, ofDevice d exponent = .ok (f, bareRows ++ bareColumns) ∧
      (∀ high low, low ≤ high → high < d.height.toNat →
        f.xFactor high low = .ok (spanFactor exponent (high - low + 1)
          (trackTotal d.tracksOfRow high low))) ∧
      (∀ high low, low ≤ high → high < d.width.toNat →
        f.yFactor high low = .ok (spanFactor exponent (high - low + 1)
          (trackTotal d.tracksOfColumn high low))) ∧
      (∀ high low, low ≤ high → high < d.height.toNat →
        SpanTable.offset high low < f.x.values.size) ∧
      (∀ high low, low ≤ high → high < d.width.toNat →
        SpanTable.offset high low < f.y.values.size) ∧
      (∀ high low high' low', low ≤ high → low' ≤ high' →
        SpanTable.offset high low = SpanTable.offset high' low' → high = high' ∧ low = low') ∧
      SpanTable.ListsBare α .horizontal d.tracksOfRow d.height.toNat bareRows ∧
      SpanTable.ListsBare α .vertical d.tracksOfColumn d.width.toNat bareColumns ∧
      (∀ {δ : Type} [DelayScalar δ α] (nl : Netlist) (settings : CostSettings α) (e : Engine δ α)
        (findings : List (Finding α)), settings.exponent = exponent →
        Engine.ofDevice nl d settings = .ok (.ok (e, findings)) →
        e.factors = f ∧ (findings.filter fun found => found.code = .bareSpan) =
          (bareRows ++ bareColumns).map .bareSpan) ∧
      ∀ b : BareSpan, (Finding.bareSpan b).diagnostic = {
        severity := .warning
        code := ⟨.warning, 101⟩
        message := s!"{b.axis.label} channels {b.low}..={b.high} have no tracks"
        subject := some s!"{b.axis.label}[{b.high}][{b.low}]"
        notes := ["treating the span as a single track"]
        help := [] } := by
  obtain ⟨x, bareRows, hx, hrows, hbareRows⟩ :=
    SpanTable.exists_ofTracks .horizontal exponent d.tracksOfRow d.height.toNat
  obtain ⟨y, bareColumns, hy, hcolumns, hbareColumns⟩ :=
    SpanTable.exists_ofTracks .vertical exponent d.tracksOfColumn d.width.toNat
  have hf : ofDevice d exponent = .ok (⟨x, y⟩, bareRows ++ bareColumns) :=
    ofDevice_eq_ok.2 ⟨hheight, hwidth, bareRows, bareColumns, hx, hy, rfl⟩
  refine ⟨⟨x, y⟩, bareRows, bareColumns, hf, ?_, ?_, ?_, ?_, ?_, hbareRows, hbareColumns, ?_,
    Finding.diagnostic_bareSpan⟩
  · exact fun high low hlow hhigh => hrows.get hlow hhigh trivial
  · exact fun high low hlow hhigh => hcolumns.get hlow hhigh trivial
  · exact fun high low hlow hhigh => hrows.full.offset_lt hlow (by rwa [hrows.size])
  · exact fun high low hlow hhigh => hcolumns.full.offset_lt hlow (by rwa [hcolumns.size])
  · exact fun high low high' low' hlow hlow' => (SpanTable.offset_inj hlow hlow').1
  · rintro δ _ nl settings e findings rfl h
    exact Engine.findings_bareSpan hf h

end ChannelFactors

end WireCost

/-! ## A column without tracks -/

namespace WireCost.Sample

/-- A small device with one wider row and one column without tracks. -/
def gapped : Device := ⟨4, 4, 1, [2, 6, 2, 2], [3, 3, 0, 3]⟩

end WireCost.Sample

namespace WireCost.ChannelFactors

open Sample

/-- The wider row counts in every span that it belongs to, and there is one warning. -/
theorem factor_of_every_span_small :
    requireRoom gapped.height.toNat = .ok () ∧ requireRoom gapped.width.toNat = .ok () ∧
    ∃ f, ofDevice gapped (1 : Rat) = .ok (f, [⟨.vertical, 2, 2⟩]) ∧
      f.xFactor 1 0 = .ok (1 / 4) ∧ f.xFactor 3 0 = .ok (1 / 3) ∧ f.yFactor 2 2 = .ok 1 := by
  have hheight : requireRoom gapped.height.toNat = .ok () := by decide +kernel
  have hwidth : requireRoom gapped.width.toNat = .ok () := by decide +kernel
  obtain ⟨f, bareRows, bareColumns, hf, hx, hy, -⟩ :=
    factor_of_every_span gapped (1 : Rat) hheight hwidth
  refine ⟨hheight, hwidth, f, ?_, ?_, ?_, ?_⟩
  · have hbare : (ofDevice gapped (1 : Rat)).map Prod.snd = .ok [⟨.vertical, 2, 2⟩] := by
      decide +kernel
    rw [hf] at hbare
    rw [hf, show bareRows ++ bareColumns = [⟨.vertical, 2, 2⟩] from Except.ok.inj hbare]
  · rw [hx 1 0 (by decide) (by decide)]
    decide +kernel
  · rw [hx 3 0 (by decide) (by decide)]
    decide +kernel
  · rw [hy 2 2 (by decide) (by decide)]
    decide +kernel

end WireCost.ChannelFactors

/-! ## Devices with too many rows -/

namespace WireCost.Sample

/-- A device with as many rows as a signed word can count. Its row tracks can be listed, but the
spans of its rows take more bytes than a table may have. -/
def tall : Device := ⟨3, 2147483647, 1, [1], [1]⟩

/-- A device with rows whose tracks cannot be listed. -/
def taller : Device := ⟨3, 2305843009213693955, 1, [1], [1]⟩

end WireCost.Sample

namespace WireCost.ChannelFactors

open Sample

/-- **Without room for the table** there are no factors, not even for the span of the first row. -/
theorem tall_devices_overflow :
    0 < tall.height.toNat ∧ ofDevice tall (1 : Rat) = .error .tableTooLarge ∧
    0 < taller.height.toNat ∧ ofDevice taller (1 : Rat) = .error .tableTooLarge := by
  have hspans : requireRoom tall.height.toNat = .error .tableTooLarge := by decide +kernel
  have htracks : requireRoom taller.height.toNat = .error .tableTooLarge := by decide +kernel
  refine ⟨by decide, ?_, by decide, ?_⟩
  · rw [ofDevice, hspans, Checked.error_bind]
  · rw [ofDevice, htracks, Checked.error_bind]

end WireCost.ChannelFactors
