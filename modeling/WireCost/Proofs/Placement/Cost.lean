import WireCost.CommandLine.Run
import WireCost.Proofs.Engine.Ready
import WireCost.Proofs.Netlist.Check

/-! # Costing an accepted placement

The check of a placement puts all blocks on the device, but it does not look at the offsets of pins.
So the places of pins, and the distances between them, may still leave the range of words.

* **`Placement.check_eq_ok`** — what the check establishes.
* **`Netlist.InSpan`** — the lengths of all connections that count are words.
* **`Netlist.WellFormed.measurable_iff`** — the nets of an accepted netlist can be measured when the
  places of their pins are words; **`Netlist.WellFormed.exists_timed_iff`** — its connections can be
  timed when their lengths are words.
* **`Placement.Costable`** — both, as far as the settings ask for it.
* **`Placement.exists_summarize_iff`** — a placement on a device with an interior can be costed
  exactly then.
* **`Invocation.exit_of_cost`** — how a run that costs an accepted placement ends;
  **`Invocation.accepted_file_faults`** — one that ends with a fault. -/

namespace WireCost

/-! ## What the check establishes -/

/-- A coordinate on one of the lines of a side is not negative, and below the size. -/
theorem Device.lt_of_hasLine {size : UInt64} {v : Int32} (h : hasLine size v = true) :
    0 ≤ v.toInt ∧ v.toInt < size.toNat := by
  rw [hasLine, Bool.and_eq_true, decide_eq_true_eq, decide_eq_true_eq] at h
  obtain ⟨hle, hlt⟩ := h
  refine ⟨hle, hlt.trans_le ?_⟩
  simp only [Word.cut32, Word.size32, Int.bmod]
  omega

namespace Placement

variable {p : Placement}

/-- **A placement passes the check** when its netlist does, the device lists its channels, and all
blocks sit on the device. -/
theorem check_eq_ok : p.check = .ok () ↔ p.netlist.WellFormed ∧ p.device.listsChannels = true ∧
    ∀ b ∈ p.netlist.blocks, p.device.hasLocation b.location = true := by
  have hblocks : (p.netlist.blocks.toList.find? fun b => !p.device.hasLocation b.location) = none ↔
      ∀ b ∈ p.netlist.blocks, p.device.hasLocation b.location = true := by
    simp
  rw [← Netlist.check_eq_ok, ← hblocks, check]
  cases p.netlist.check with
  | error defect => simp
  | ok u =>
    cases p.device.listsChannels with
    | false => simp
    | true =>
      cases p.netlist.blocks.toList.find? fun b => !p.device.hasLocation b.location with
      | some b => simp
      | none => simp

/-- The blocks of a placement that passes are on layers of the device. -/
theorem layer_of_check (h : p.check = .ok ()) : ∀ b ∈ p.netlist.blocks,
    0 ≤ b.location.layer.toInt ∧ b.location.layer.toInt < p.device.layers.toNat := by
  obtain ⟨-, -, hblocks⟩ := check_eq_ok.1 h
  intro b hb
  have hlocation := hblocks b hb
  rw [Device.hasLocation, Bool.and_eq_true] at hlocation
  exact Device.lt_of_hasLine hlocation.2

/-- What a file is read as has passed the check. -/
theorem check_of_ofText {path text : String} (h : ofText path text = .ok p) :
    p.check = .ok () := by
  rw [ofText] at h
  split at h
  · cases h
  · rename_i q _
    cases hcheck : Placement.check { q with netlist := q.netlist.indexNames } with
    | error defect => simp [hcheck, bind, Except.bind] at h
    | ok u =>
      simp only [hcheck, bind, Except.bind, Except.ok.injEq] at h
      rw [← h, hcheck]

end Placement

/-! ## The places of pins -/

namespace Netlist

variable {nl : Netlist} {n : NetId} {net : Net} {driver p : PinId} {i : Interior} {s : Site}

/-- **The lengths of all connections that count are words.** -/
def InSpan (nl : Netlist) : Prop :=
  ∀ net ∈ nl.nets, net.ignored = false → ∀ driver ∈ net.driver, ∀ p ∈ net.sinks,
    ∀ a ∈ nl.spot? driver, ∀ b ∈ nl.spot? p, a.gridDistance b < Word.size31

instance (nl : Netlist) : Decidable nl.InSpan :=
  inferInstanceAs (Decidable (∀ net ∈ nl.nets, _ → ∀ driver ∈ net.driver, ∀ p ∈ net.sinks,
    ∀ a ∈ nl.spot? driver, ∀ b ∈ nl.spot? p, _))

/-- A net is the one with some id, if there are no more nets than ids. -/
theorem exists_id (hnets : nl.nets.size ≤ Word.size32) (hnet : net ∈ nl.nets) :
    ∃ n : NetId, nl.nets[n.toNat]? = some net := by
  obtain ⟨k, hk⟩ := Array.getElem?_of_mem hnet
  have hlt := (Array.getElem?_eq_some_iff.1 hk).1
  exact ⟨.ofNat k, by rwa [NetId.toNat_ofNat (hlt.trans_le hnets)]⟩

namespace WellFormed

/-- The pins of every net have places. -/
theorem exists_spot (h : nl.WellFormed) (hnet : net ∈ nl.nets)
    (hp : p ∈ net.driver.toList ++ net.sinks) : ∃ s, nl.spot? p = some s := by
  obtain ⟨pin, hpin⟩ : ∃ pin, nl.pins[p.toNat]? = some pin := by
    obtain hp | hp := List.mem_append.1 hp
    · obtain ⟨driver, pin, hdriver, hpin, -⟩ := h.driver net hnet
      obtain rfl : p = driver := by simpa [hdriver] using hp
      exact ⟨pin, hpin⟩
    · obtain ⟨k, hk⟩ := List.getElem?_of_mem hp
      obtain ⟨pin, hpin, -⟩ := h.sink net hnet k p hk
      exact ⟨pin, hpin⟩
  obtain ⟨block, hblock, -⟩ := h.listed pin (Array.mem_of_getElem? hpin)
  exact ⟨_, spot?_eq_some.2 ⟨pin, block, hpin, hblock, rfl⟩⟩

/-- **The nets of an accepted netlist can be measured** exactly when the places of their pins are
words. -/
theorem measurable_iff (h : nl.WellFormed) (hnets : nl.nets.size ≤ Word.size32)
    (hpins : nl.pins.size < Word.size31) (hopen : i.IsOpen)
    (hblocks : ∀ b ∈ nl.blocks, i.HasLayer b.location.layer.toInt) :
    nl.Measurable i ↔ nl.InWords := by
  constructor
  · intro hmeasurable net hnet hcounted p hp s hspot
    obtain ⟨n, hn⟩ := exists_id hnets hnet
    obtain ⟨driver, hc⟩ := hmeasurable.counts hn hcounted
    rw [hc.driven] at hp
    exact (exists_siteIn_iff hopen hblocks hspot).1
      ⟨_, hmeasurable.sited n net driver hc p hp⟩
  · intro hwords
    refine ⟨fun net hnet _ => h.driven net hnet, fun n net driver hc => ?_,
      fun net hnet _ => (h.length_sinks_le hnet).trans_lt hpins⟩
    have hmem := Array.mem_of_getElem? hc.entry
    refine sited_of_spots hopen hblocks hc.driven (fun p => h.exists_spot hmem) ?_
    exact hwords net hmem hc.counted

/-! ## The lengths of connections -/

/-- The connections of an accepted netlist can be numbered. -/
theorem numbered (h : nl.WellFormed) (hnets : nl.nets.size ≤ Word.size32)
    (hpins : nl.pins.size < Word.size31) : nl.Numbered := by
  refine numbered_of_lt hnets fun net hnet => ?_
  have hle := h.length_sinks_le hnet
  simp only [Word.size31, Word.size32] at hpins ⊢
  omega

/-- **The connections of an accepted netlist can be timed** exactly when their lengths are words, if
the places of their pins are. -/
theorem exists_timed_iff {δ α : Type} [CostScalar α] [DelayScalar δ α] (h : nl.WellFormed)
    (hnets : nl.nets.size ≤ Word.size32) (hpins : nl.pins.size < Word.size31)
    (hblocks : ∀ b ∈ nl.blocks, 0 ≤ b.location.layer.toInt) (hwords : nl.InWords)
    (d : LinearDelay δ) (value : δ) :
    (∀ c ∈ nl.countedConnections, ∃ timed : Connection δ α, TimingInputs.timed
      ⟨manhattan d, (Criticality.uniform nl value).get⟩ nl c = .ok timed) ↔ nl.InSpan := by
  have hlayers {p q : PinId} {a b : Site} (ha : nl.spot? p = some a) (hb : nl.spot? q = some b) :
      (a.layer - b.layer).natAbs < Word.size31 := by
    obtain ⟨block, hblock, heq⟩ := layer_of_spot? ha
    obtain ⟨block', hblock', heq'⟩ := layer_of_spot? hb
    rw [heq, heq']
    exact Location.layers_lt (hblocks block hblock) (hblocks block' hblock')
  constructor
  · intro htimed net hnet hcounted driver hdriver p hp a ha b hb
    obtain ⟨n, hn⟩ := exists_id hnets hnet
    obtain ⟨k, hk⟩ := List.getElem?_of_mem hp
    obtain ⟨timed, htimed⟩ := htimed (n, k) ((mem_countedConnections hnets).2
      ⟨net, hn, hcounted, (List.getElem?_eq_some_iff.1 hk).1⟩)
    obtain ⟨hdelay, -⟩ := TimingInputs.timed_eq_ok.1 htimed
    obtain ⟨⟨a', b'⟩, hends, hdelay⟩ := manhattan_eq_ok.1 hdelay
    obtain ⟨net', driver', p', hn', hdriver', hk', ha', hb'⟩ := endsOf_eq_ok.1 hends
    obtain rfl := Option.some.inj (hn.symm.trans hn')
    obtain rfl := Option.some.inj ((Option.mem_def.1 hdriver).symm.trans hdriver')
    obtain rfl := Option.some.inj (hk.symm.trans hk')
    obtain rfl := Option.some.inj ((Option.mem_def.1 ha).symm.trans (siteOf_eq_ok.1 ha').1)
    obtain rfl := Option.some.inj ((Option.mem_def.1 hb).symm.trans (siteOf_eq_ok.1 hb').1)
    exact (d.exists_between_iff.1 ⟨_, hdelay⟩).1
  · intro hspan c hc
    obtain ⟨net, hn, hcounted, hlt⟩ := (mem_countedConnections hnets).1 hc
    have hnet := Array.mem_of_getElem? hn
    obtain ⟨driver, hdriver⟩ := Option.isSome_iff_exists.1 (h.driven net hnet)
    have hsource : driver ∈ net.driver.toList ++ net.sinks := by simp [hdriver]
    have htarget : net.sinks[c.2] ∈ net.driver.toList ++ net.sinks := by simp
    obtain ⟨a, ha⟩ := h.exists_spot hnet hsource
    obtain ⟨b, hb⟩ := h.exists_spot hnet htarget
    have hshort := hspan net hnet hcounted driver hdriver _ (List.getElem_mem hlt) a ha b hb
    obtain ⟨delay, hdelay⟩ := d.exists_between_iff.2 ⟨hshort, hlayers ha hb⟩
    have hends : nl.endsOf c.1 c.2 = .ok (a, b) :=
      endsOf_eq_ok.2 ⟨net, driver, _, hn, hdriver, List.getElem?_eq_getElem hlt,
        siteOf_eq_ok.2 ⟨ha, hwords net hnet hcounted driver hsource a ha⟩,
        siteOf_eq_ok.2 ⟨hb, hwords net hnet hcounted _ htarget b hb⟩⟩
    have hmodel : manhattan d nl c.1 c.2 = .ok delay := manhattan_eq_ok.2 ⟨_, hends, hdelay⟩
    obtain ⟨weight, hweight⟩ := (Criticality.isFor_uniform nl value).exists_get
      (h.numbered hnets hpins) (hasConnection_of_mem_counted hc)
    exact ⟨⟨delay, DelayScalar.toCost weight * DelayScalar.toCost delay⟩,
      TimingInputs.timed_eq_ok.2 ⟨hmodel, weight, hweight, rfl⟩⟩

end WellFormed

end Netlist

/-! ## Costs -/

namespace Placement

variable {p : Placement} {s : Settings} {summary : CostSummary}

/-- **There is room for the tables** that costing a placement takes: nets and pins have ids, the
spans of channels can be told, and so can the geometries of all nets. -/
structure HasRoom (p : Placement) (form : FormChoice) : Prop where
  nets : p.netlist.nets.size ≤ Word.size32
  pins : p.netlist.pins.size < Word.size31
  rows : ChannelFactors.requireRoom p.device.height.toNat = .ok ()
  columns : ChannelFactors.requireRoom p.device.width.toNat = .ok ()
  geometries : GeometryTable.requireRoom (Engine.formFor form p.device.layers.toNat)
    p.netlist.nets.size p.device.layers.toNat = .ok ()

instance (p : Placement) (form : FormChoice) : Decidable (p.HasRoom form) :=
  decidable_of_iff (_ ∧ _ ∧ _ ∧ _ ∧ _)
    ⟨fun ⟨nets, pins, rows, columns, geometries⟩ => ⟨nets, pins, rows, columns, geometries⟩,
      fun h => ⟨h.nets, h.pins, h.rows, h.columns, h.geometries⟩⟩

/-- **What a placement needs to be costed:** the places of all pins that count are words, and with
timing the lengths of all connections that count are words as well. -/
structure Costable (p : Placement) (timed : Bool) : Prop where
  places : p.netlist.InWords
  lengths : timed = true → p.netlist.InSpan

instance (p : Placement) (timed : Bool) : Decidable (p.Costable timed) :=
  decidable_of_iff (_ ∧ (_ → _)) ⟨fun ⟨places, lengths⟩ => ⟨places, lengths⟩,
    fun h => ⟨h.places, h.lengths⟩⟩

/-- The timing cost, if it is asked for. -/
def TimedAs (nl : Netlist) (e : Engine Float32 Float) (timed : Bool) (cost? : Option Float) :
    Prop :=
  if timed then ∃ e' cost, e.recomputeTiming nl (.standard nl) = .ok (e', cost) ∧ some cost = cost?
  else none = cost?

/-- **What a placement is costed with:** a new engine, a rebuild that estimates the wirelength, and
a timing of all connections if it is asked for. -/
theorem summarize_eq_ok : p.summarize s = .ok (.ok summary) ↔ ∃ e found e' report more cost?,
    Engine.ofDevice p.netlist p.device s.cost = .ok (.ok (e, found)) ∧
    e.rebuild p.netlist true = .ok (e', report, more) ∧
    TimedAs p.netlist e' s.timing.enabled cost? ∧
    { form := e'.form
      nets := p.netlist.nets.size
      box := report.total
      wirelength := report.wirelength
      timing := cost?
      combined := cost?.map fun t => Totals.combined ⟨report.total, t⟩ s.timing.tradeoff
      diagnostics := (found ++ more).map Finding.diagnostic } = summary := by
  simp only [summarize, TimedAs, Checked.bind_eq_ok]
  constructor
  · rintro ⟨new?, hnew, h⟩
    cases new? with
    | error defect => cases h
    | ok new =>
      obtain ⟨⟨e', report, more⟩, hrebuild, h⟩ := Checked.bind_eq_ok.1 h
      dsimp only at h
      split at h
      · rename_i henabled
        obtain ⟨⟨e'', cost⟩, hcost, h⟩ := Checked.bind_eq_ok.1 h
        cases h
        refine ⟨new.1, new.2, e', report, more, some cost, hnew, hrebuild, ?_, rfl⟩
        rw [if_pos henabled]
        exact ⟨e'', cost, hcost, rfl⟩
      · rename_i henabled
        cases h
        refine ⟨new.1, new.2, e', report, more, none, hnew, hrebuild, ?_, rfl⟩
        rw [if_neg henabled]
  · rintro ⟨e, found, e', report, more, cost?, hnew, hrebuild, hcost, rfl⟩
    refine ⟨_, hnew, ?_⟩
    dsimp only
    rw [hrebuild, Checked.ok_bind]
    split at hcost
    · rename_i henabled
      obtain ⟨e'', cost, hcost, rfl⟩ := hcost
      simp only [henabled, if_true, hcost, Checked.ok_bind]
      rfl
    · rename_i henabled
      obtain rfl := hcost
      simp only [henabled]
      rfl

/-- **A placement is refused** exactly when its device has no interior. -/
theorem exists_defect_iff :
    (∃ defect, p.summarize s = .ok (.error defect)) ↔ ¬ p.device.HasInterior := by
  rw [← Interior.exists_defect_iff]
  refine exists_congr fun defect => ?_
  have hdevice : (Engine.ofDevice p.netlist p.device s.cost :
      Checked (Except DeviceDefect (Engine Float32 Float × List (Finding Float)))) =
        .ok (.error defect) ↔ Interior.ofDevice p.device = .ok (.error defect) :=
    Engine.ofDevice_eq_defect
  rw [← hdevice, summarize]
  simp only [Checked.bind_eq_ok]
  constructor
  · rintro ⟨new?, hnew, h⟩
    cases new? with
    | error defect' =>
      cases h
      exact hnew
    | ok new =>
      obtain ⟨rebuilt, -, h⟩ := Checked.bind_eq_ok.1 h
      split at h
      · obtain ⟨timed, -, h⟩ := Checked.bind_eq_ok.1 h
        cases h
      · cases h
  · exact fun hnew => ⟨_, hnew, rfl⟩

/-- The tables of a device with an interior, and when the nets of the placement can be measured
there. -/
theorem exists_interior (hcheck : p.check = .ok ()) (hroom : p.HasRoom s.cost.form)
    (hinterior : p.device.HasInterior) : ∃ interior factors bare,
      Interior.ofDevice p.device = .ok (.ok interior) ∧
      ChannelFactors.ofDevice p.device s.cost.exponent = .ok (factors, bare) ∧
      interior.IsOpen ∧ factors.Cover interior ∧ interior.layers = p.device.layers.toNat ∧
      (p.netlist.Measurable interior ↔ p.netlist.InWords) := by
  obtain ⟨hwellFormed, -⟩ := check_eq_ok.1 hcheck
  obtain ⟨hwidth, hheight, hlayers⟩ := hinterior
  obtain ⟨interior, hnew, hopen, heq⟩ := Interior.exists_ofDevice hwidth
    (ChannelFactors.lt_of_requireRoom hroom.columns) hheight
    (ChannelFactors.lt_of_requireRoom hroom.rows) hlayers
  obtain ⟨factors, bare, hfactors⟩ :=
    ChannelFactors.exists_ofDevice s.cost.exponent hroom.rows hroom.columns
  refine ⟨interior, factors, bare, hnew, hfactors, hopen,
    ChannelFactors.cover_ofDevice hnew hfactors, heq, ?_⟩
  refine hwellFormed.measurable_iff hroom.nets hroom.pins hopen fun b hb => ?_
  rw [Interior.HasLayer, heq]
  exact layer_of_check hcheck b hb

/-- **A rebuilt engine can time all connections** exactly when their lengths are words. -/
theorem exists_timing_iff {e : Engine Float32 Float} (hcheck : p.check = .ok ())
    (hroom : p.HasRoom s.cost.form) (hidle : e.pending = false)
    (htable : e.connections.IsFor p.netlist) (hwords : p.netlist.InWords) :
    (∃ e' cost, e.recomputeTiming p.netlist (.standard p.netlist) = .ok (e', cost)) ↔
      p.netlist.InSpan := by
  obtain ⟨hwellFormed, -⟩ := check_eq_ok.1 hcheck
  have htimed := hwellFormed.exists_timed_iff (α := Float) hroom.nets hroom.pins
    (fun b hb => (layer_of_check hcheck b hb).1) hwords .standard 1.0
  refine Iff.trans ?_ ((ConnectionTable.exists_recompute_iff htable
    (hwellFormed.numbered hroom.nets hroom.pins)).trans htimed)
  simp only [Engine.recomputeTiming_eq_ok]
  constructor
  · rintro ⟨e', cost, -, t, h, -⟩
    exact ⟨t, cost, h⟩
  · rintro ⟨t, cost, h⟩
    exact ⟨_, cost, hidle, t, h, rfl⟩

/-- What is costed has places and lengths that are words. -/
theorem costable_of_summarize (hcheck : p.check = .ok ()) (hroom : p.HasRoom s.cost.form)
    (hinterior : p.device.HasInterior) (h : p.summarize s = .ok (.ok summary)) :
    p.Costable s.timing.enabled := by
  obtain ⟨interior, factors, bare, hnew, -, -, -, -, hmeasurable⟩ :=
    exists_interior hcheck hroom hinterior
  obtain ⟨hwellFormed, -⟩ := check_eq_ok.1 hcheck
  obtain ⟨e, found, e', report, more, cost?, he, hrebuild, hcost, -⟩ := summarize_eq_ok.1 h
  obtain ⟨interior', factors', bare', hnew', -, he, -⟩ := Engine.ofDevice_eq_ok.1 he
  obtain rfl : interior = interior' := by simpa [hnew] using hnew'
  -- the new engine has scanned every net that counts
  have hwords := hmeasurable.1 ⟨fun net hnet _ => hwellFormed.driven net hnet,
    fun n net driver => Engine.sited_of_ofFactors hroom.nets he,
    fun net hnet _ => (hwellFormed.length_sinks_le hnet).trans_lt hroom.pins⟩
  refine ⟨hwords, fun htimed => ?_⟩
  rw [TimedAs, if_pos htimed] at hcost
  obtain ⟨e'', cost, hcost, -⟩ := hcost
  obtain ⟨hidle, htable⟩ := Engine.idle_of_rebuilt he hrebuild
  exact (exists_timing_iff hcheck hroom hidle htable hwords).1 ⟨e'', cost, hcost⟩

/-- A placement whose places and lengths are words is costed. -/
theorem Costable.exists_summarize (h : p.Costable s.timing.enabled) (hcheck : p.check = .ok ())
    (hroom : p.HasRoom s.cost.form) (hinterior : p.device.HasInterior) :
    ∃ summary, p.summarize s = .ok (.ok summary) := by
  obtain ⟨interior, factors, bare, hnew, hfactors, hopen, hcover, hlayers, hmeasurable⟩ :=
    exists_interior hcheck hroom hinterior
  have hgeometries := hroom.geometries
  rw [← hlayers] at hgeometries
  have hmeasured := hmeasurable.2 h.places
  obtain ⟨e, he⟩ := Engine.exists_ofFactors (δ := Float32) hopen hcover hmeasured hgeometries
    ⟨s.cost.smallNet, s.cost.tolerance⟩
  have hdevice := Engine.ofDevice_eq_ok.2 ⟨interior, factors, bare, hnew, hfactors, he, rfl⟩
  have hrebuilding := Engine.rebuilding_ofFactors he
  obtain ⟨e', ⟨report, more⟩, hrebuild⟩ :=
    (Engine.equipped_ofFactors hopen hcover he).exists_rebuild
      ((Engine.setup_ofFactors he).1 ▸ hmeasured) (Engine.idle_ofFactors he)
      (by simpa using hrebuilding.netsSize.symm)
      (by rw [hrebuilding.size, hrebuilding.netsSize]; simp) true
  obtain ⟨cost?, hcost⟩ : ∃ cost?, TimedAs p.netlist e' s.timing.enabled cost? := by
    unfold TimedAs
    split
    · rename_i htimed
      obtain ⟨hidle, htable⟩ := Engine.idle_of_rebuilt he hrebuild
      obtain ⟨e'', cost, hcost⟩ :=
        (exists_timing_iff hcheck hroom hidle htable h.places).2 (h.lengths htimed)
      exact ⟨some cost, e'', cost, hcost, rfl⟩
    · exact ⟨none, rfl⟩
  exact ⟨_, summarize_eq_ok.2 ⟨e, _, e', report, more, cost?, hdevice, hrebuild, hcost, rfl⟩⟩

/-- **A placement that is accepted can be costed** exactly when the places of its pins, and with
timing the lengths of its connections, are words; provided that its device has an interior. -/
theorem exists_summarize_iff (hcheck : p.check = .ok ()) (hroom : p.HasRoom s.cost.form)
    (hinterior : p.device.HasInterior) :
    (∃ summary, p.summarize s = .ok (.ok summary)) ↔ p.Costable s.timing.enabled :=
  ⟨fun ⟨_, h⟩ => costable_of_summarize hcheck hroom hinterior h,
    fun h => h.exists_summarize hcheck hroom hinterior⟩

/-- A summary tells of no error. -/
theorem hasErrors_of_summarize (h : p.summarize s = .ok (.ok summary)) :
    summary.hasErrors = false := by
  obtain ⟨e, found, e', report, more, cost?, he, hrebuild, -, rfl⟩ := summarize_eq_ok.1 h
  obtain ⟨interior, factors, bare, -, -, -, rfl⟩ := Engine.ofDevice_eq_ok.1 he
  obtain ⟨-, -, totals, -, hreport⟩ := Engine.rebuild_eq_ok.1 hrebuild
  obtain rfl : [.wirelength totals.wirelength] = more := congrArg Prod.snd hreport
  -- spans without tracks are warnings, and the other findings are notes
  simp [CostSummary.hasErrors, Finding.diagnostic, Finding.severity, Diagnostic.plain,
    Diagnostic.about, Diagnostic.noting, Severity.isError]

end Placement

/-! ## Runs -/

namespace Invocation

variable {i : Invocation} {around : Surroundings} {path : String} {p : Placement} {s : Settings}

/-- What a run reads has passed the check. -/
theorem check_of_placement (h : placement around path = .ok p) : p.check = .ok () := by
  rw [placement] at h
  split at h
  · exact Placement.check_of_ofText h
  · cases h

/-- A run that costs a placement passes on how the costing ends. -/
theorem run_eq (hcommand : i.command = .cost path) (hsettings : i.settings around = .ok s)
    (hplacement : placement around path = .ok p) : i.run around =
      match p.summarize s with
      | .error fault =>
        (Failure.fault fault).printed (if i.announces then costHeading path p else "")
      | .ok (.error defect) =>
        (Failure.error (RunError.unsupportedDevice defect.reason).message).printed
          (if i.announces then costHeading path p else "")
      | .ok (.ok summary) =>
        i.printCost around (if i.announces then costHeading path p else "") summary := by
  rw [run, hcommand]
  simp only [runCost, hsettings, hplacement]
  cases p.summarize s with
  | error fault => rfl
  | ok answer => cases answer <;> rfl

/-- **How a run that costs an accepted placement ends,** if there is room for its tables. If the
device has no interior then the run tells so and fails. If it has one and the placement can be
costed then the run reports the costs, and otherwise it stops with a fault. -/
theorem exit_of_cost (hcommand : i.command = .cost path) (hsettings : i.settings around = .ok s)
    (hplacement : placement around path = .ok p) (hroom : p.HasRoom s.cost.form) :
    (¬ p.device.HasInterior → (i.run around).exit = 1) ∧
    (p.device.HasInterior → p.Costable s.timing.enabled → (i.run around).exit = 0) ∧
    (p.device.HasInterior → ¬ p.Costable s.timing.enabled → (i.run around).exit = 101) := by
  have hcostable := Placement.exists_summarize_iff (check_of_placement hplacement) hroom
  rw [run_eq hcommand hsettings hplacement]
  refine ⟨fun hnone => ?_, fun hinterior h => ?_, fun hinterior h => ?_⟩
  · obtain ⟨defect, hdefect⟩ := Placement.exists_defect_iff.2 hnone
    rw [hdefect]
    rfl
  · obtain ⟨summary, hsummary⟩ := (hcostable hinterior).2 h
    rw [hsummary]
    simp only [printCost, Placement.hasErrors_of_summarize hsummary]
    split <;> rfl
  · cases hsummary : p.summarize s with
    | error fault => rfl
    | ok answer =>
      cases answer with
      | error defect => exact absurd hinterior (Placement.exists_defect_iff.1 ⟨defect, hsummary⟩)
      | ok summary => exact absurd ((hcostable hinterior).1 ⟨summary, hsummary⟩) h

end Invocation

/-! ## A pin far from its block -/

namespace Sample

/-- The text of a file with one block, which drives a net by a pin that is `dx` columns off. -/
def fileText (dx : String) : String :=
  "[[3,3,1,[1,1,1],[1,1,1]],[[[0,\"a\",[1,1,0,0],[0]]],[[0,\"n\",0,[]]]," ++
    "[[0,0,0,\"driver\",[" ++ dx ++ ",0]]]]]"

/-- That file and no other one. -/
def oneFile (dx : String) : Surroundings :=
  ⟨fun path => if path = "p.json" then .ok (fileText dx) else .error .missing, false⟩

/-- A run that costs the file. -/
def costing : Invocation := ⟨⟨false, false, .auto, none⟩, .text, .cost "p.json"⟩

/-- What is read has some property. -/
def readsAs (dx : String) (P : Placement → Prop) [DecidablePred P] : Bool :=
  match Invocation.placement (oneFile dx) "p.json" with
  | .ok p => decide (P p)
  | .error _ => false

theorem exists_of_readsAs (dx : String) (P : Placement → Prop) [DecidablePred P]
    (h : readsAs dx P = true) :
    ∃ p, Invocation.placement (oneFile dx) "p.json" = .ok p ∧ P p := by
  unfold readsAs at h
  split at h
  · rename_i p hp
    exact ⟨p, hp, of_decide_eq_true h⟩
  · cases h

end Sample

namespace Invocation

/-- If the pin is as far off as a word allows, then the file is costed. -/
theorem exit_of_cost_small : (Sample.costing.run (Sample.oneFile "2147483646")).exit = 0 := by
  obtain ⟨p, hp, hinterior, hroom, hcostable⟩ := Sample.exists_of_readsAs "2147483646"
    (fun p => p.device.HasInterior ∧ p.HasRoom .auto ∧ p.Costable false) (by decide +kernel)
  exact (exit_of_cost rfl rfl hp hroom).2.1 hinterior hcostable

/-- **An accepted file may stop the run:** one column further off, the column of the pin is no word,
and the file is accepted all the same. -/
theorem accepted_file_faults : ∃ p,
    placement (Sample.oneFile "2147483647") "p.json" = .ok p ∧ p.device.HasInterior ∧
      p.HasRoom .auto ∧ (Sample.costing.run (Sample.oneFile "2147483647")).exit = 101 := by
  obtain ⟨p, hp, hinterior, hroom⟩ := Sample.exists_of_readsAs "2147483647"
    (fun p => p.device.HasInterior ∧ p.HasRoom .auto) (by decide +kernel)
  exact ⟨p, hp, hinterior, hroom, by decide +kernel⟩

end Invocation

end WireCost
