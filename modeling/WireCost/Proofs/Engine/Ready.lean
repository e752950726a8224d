import WireCost.Proofs.Engine.Exactness
import WireCost.Proofs.Engine.Steady
import WireCost.Proofs.Timing.Serving

/-! # Engines that never stop with a fault

* **`Netlist.Measurable`** — a netlist whose nets that count are driven and have sites.
* **`Netlist.Routable`** — a netlist whose pins that count are driven and near the device.
* **`Engine.Equipped`** — an engine with factors for its interior.
* **`Engine.Equipped.exists_measured`** — it can measure every net of a measurable netlist.
* **`Engine.Checkable`** — an idle engine whose committed boxes can be costed.
* **`Engine.Checkable.exists_checkTotals`** — its totals can be checked.
* **`Engine.Ready`** — a steady engine that is equipped for a routable netlist.
* **`Engine.Ready.exists_evaluate`** and its like — every request to it succeeds.
* **`Engine.Ready.passes`** — all that is proposed passes the checks. -/

namespace WireCost

/-- **A netlist that can be measured** in an interior: a net that is not ignored has a driver, its
pins have sites, and its sinks can be counted by a signed word. -/
structure Netlist.Measurable (i : Interior) (nl : Netlist) : Prop where
  driven : ∀ net ∈ nl.nets, net.ignored = false → net.driver.isSome
  sited : ∀ (n : NetId) (net : Net) (driver : PinId), nl.Counts n net driver →
    nl.Sited i net driver
  sinks : ∀ net ∈ nl.nets, net.ignored = false → net.sinks.length < Word.size31

/-- A net that is not ignored counts. -/
theorem Netlist.Measurable.counts {nl : Netlist} {i : Interior} {n : NetId} {net : Net}
    (h : nl.Measurable i) (hnet : nl.nets[n.toNat]? = some net) (hcounted : net.ignored = false) :
    ∃ driver, nl.Counts n net driver := by
  obtain ⟨driver, hdriver⟩ :=
    Option.isSome_iff_exists.1 (h.driven net (Array.mem_of_getElem? hnet) hcounted)
  exact ⟨driver, hnet, hcounted, hdriver⟩

/-- **A netlist whose tables agree can be measured** if its nets that count are driven, its blocks
are on layers of the interior, and the places of its pins that count are words. -/
theorem Netlist.Consistent.measurable {nl : Netlist} {i : Interior} (h : nl.Consistent)
    (hopen : i.IsOpen) (hblocks : ∀ b ∈ nl.blocks, i.HasLayer b.location.layer.toInt)
    (hdriven : ∀ net ∈ nl.nets, net.ignored = false → net.driver.isSome) (hwords : nl.InWords)
    (hpins : nl.pins.size < Word.size31) : nl.Measurable i where
  driven := hdriven
  sited _ net _ hc := h.sited hopen hblocks hc.entry hc.driven
    (hwords net (Array.mem_of_getElem? hc.entry) hc.counted)
  sinks _ hnet _ := (h.length_sinks_le (h.getElem?_id hnet)).trans_lt hpins

/-- **A netlist that can be routed** on a device with some layers: its tables agree, nets that are
not ignored have drivers, the pins can be counted by a signed word, and they are near the device. -/
structure Netlist.Routable (layers : Nat) (nl : Netlist) : Prop where
  consistent : nl.Consistent
  driven : ∀ net ∈ nl.nets, net.ignored = false → net.driver.isSome
  pins : nl.pins.size < Word.size31
  near : nl.Near layers

namespace Netlist.Routable

variable {nl placed : Netlist} {layers : Nat} {n : NetId} {net : Net} {m : Move} {i : Interior}

/-- The sinks of a net can be counted by a signed word. -/
theorem length_sinks_lt (h : nl.Routable layers) (hnet : nl.nets[n.toNat]? = some net) :
    net.sinks.length < Word.size31 :=
  (h.consistent.length_sinks_le hnet).trans_lt h.pins

/-- **A routable netlist can be measured** in an interior with a column and a row. -/
theorem measurable (h : nl.Routable i.layers) (hopen : i.IsOpen) : nl.Measurable i where
  driven := h.driven
  sited _ _ _ hc :=
    h.near.sited h.consistent hc.entry hc.counted hc.driven hopen.columns hopen.rows
  sinks _ hnet _ := h.length_sinks_lt (h.consistent.getElem?_id hnet)

/-- **A move near the device** leaves a netlist routable. -/
theorem apply (h : nl.Routable layers) (hnear : m.IsNear layers nl) (hm : m.Fits nl)
    (happly : nl.apply m = .ok placed) : placed.Routable layers := by
  obtain ⟨hpins, hnets⟩ := apply_pins_nets hm happly
  exact ⟨consistent_apply h.consistent hm happly, hnets ▸ h.driven, hpins ▸ h.pins,
    h.near.apply hnear hm happly⟩

end Netlist.Routable

namespace Engine

variable {δ α : Type} [CostScalar α] {e e' : Engine δ α} {nl placed : Netlist} {n : NetId}
  {net : Net} {driver : PinId} {m : Move} {g : Geometry}

/-! ## Engines that can measure -/

/-- **An engine with factors for its interior,** which has a column and a row. -/
structure Equipped (e : Engine δ α) : Prop where
  layers : e.geometry.layers = e.interior.layers
  inside : e.interior.IsOpen
  cover : e.factors.Cover e.interior

omit [CostScalar α] in
theorem Equipped.of_same (h : e.Equipped) (hsetup : SameSetup e e') : e'.Equipped where
  layers := by rw [hsetup.layers, h.layers, hsetup.interior]
  inside := hsetup.interior ▸ h.inside
  cover := by
    rw [hsetup.interior, hsetup.factors]
    exact h.cover

/-- **A driven net can be measured** and costed, and has a wirelength, when its pins have sites and
its sinks can be counted by a signed word. -/
theorem Equipped.exists_measured_of_sited (h : e.Equipped) (hnet : nl.nets[n.toNat]? = some net)
    (hdriver : net.driver = some driver) (hsited : nl.Sited e.interior net driver)
    (hsinks : net.sinks.length < Word.size31) :
    ∃ g cost, e.geometry.scan nl e.interior n = .ok g ∧
      g.cost e.form e.factors = .ok cost ∧ ∃ length : α, g.wirelength e.form = .ok length := by
  have hlayers := h.inside.layers
  have hlength : net.sinks.length + 1 < Word.size32 := by
    simp only [Word.size31, Word.size32] at hsinks ⊢
    omega
  have hfits : (net.bagAt driver (nl.siteMap e.interior)).Fits :=
    SiteBag.fits_of_card_lt (by rwa [Net.card_bagAt])
  have hroom : (net.bagAt driver (nl.siteMap e.interior)).sinks.card + 1 < Word.size32 := by
    rwa [Net.card_bagAt]
  obtain ⟨g, hscan⟩ : ∃ g, (nl.sitesOf e.interior n >>=
      Geometry.scan e.form e.interior.layers) = .ok g :=
    Netlist.exists_scan hlength hnet hdriver hlayers hsited hfits
  obtain ⟨-, -, hmeasures⟩ := (Netlist.scan_eq_ok hlength hnet hdriver hlayers).1 hscan
  rw [← h.layers] at hscan
  obtain ⟨cost, hcost⟩ := hmeasures.exists_cost hlayers hsited.encloses h.cover hroom
  exact ⟨g, cost, hscan, hcost, hmeasures.exists_wirelength hlayers hsited.encloses
    h.cover.columnsWord h.cover.rowsWord hroom⟩

/-- **Every net that counts can be measured** and costed, and has a wirelength. -/
theorem Equipped.exists_measured (h : e.Equipped) (hnl : nl.Measurable e.interior)
    (hc : nl.Counts n net driver) : ∃ g cost, e.geometry.scan nl e.interior n = .ok g ∧
      g.cost e.form e.factors = .ok cost ∧ ∃ length : α, g.wirelength e.form = .ok length :=
  h.exists_measured_of_sited hc.entry hc.driven (hnl.sited n net driver hc)
    (hnl.sinks net (Array.mem_of_getElem? hc.entry) hc.counted)

/-- **A rebuild succeeds** on a measurable netlist. -/
theorem Equipped.exists_rebuild (h : e.Equipped) (hnl : nl.Measurable e.interior)
    (hidle : e.pending = false) (hsize : nl.nets.size = e.nets.size)
    (hroom : e.geometry.committed.size = e.nets.size) (withLength : Bool) :
    ∃ e' report, e.rebuild nl withLength = .ok (e', report) := by
  refine Engine.exists_rebuild hidle hsize hroom fun n _ net hnet hcounted => ?_
  obtain ⟨driver, hc⟩ := hnl.counts hnet hcounted
  obtain ⟨g, cost, hscan, hcost, hlength⟩ := h.exists_measured hnl hc
  exact ⟨g, cost, hscan, hcost, fun _ => hlength⟩

/-- **A new engine can be built** for a measurable netlist, if there is room for its geometries. -/
theorem exists_ofFactors [DelayScalar δ α] {interior : Interior} {factors : ChannelFactors α}
    {form : BoxForm} (hopen : interior.IsOpen) (hcover : factors.Cover interior)
    (hnl : nl.Measurable interior)
    (hroom : GeometryTable.requireRoom form nl.nets.size interior.layers = .ok ())
    (options : EngineOptions α) :
    ∃ e : Engine δ α, ofFactors interior factors form options nl = .ok e := by
  have hequipped : (unmeasured interior factors form options nl : Engine δ α).Equipped :=
    ⟨rfl, hopen, hcover⟩
  obtain ⟨e, report, hrebuild⟩ := hequipped.exists_rebuild hnl rfl (by simp) (by simp) false
  exact ⟨e, ofFactors_eq_ok.2 ⟨hroom, report, hrebuild⟩⟩

/-- A new engine is equipped. -/
theorem equipped_ofFactors [DelayScalar δ α] {interior : Interior} {factors : ChannelFactors α}
    {form : BoxForm} {options : EngineOptions α} (hopen : interior.IsOpen)
    (hcover : factors.Cover interior) (h : ofFactors interior factors form options nl = .ok e) :
    e.Equipped := by
  have hrest := (rebuilding_ofFactors h).rest
  obtain ⟨rfl, rfl, -⟩ := setup_ofFactors h
  refine ⟨?_, hopen, hcover⟩
  rw [hrest]
  rfl

/-- In a new engine that is rebuilt no move is pending, and there is a place for every
connection. -/
theorem idle_of_rebuilt [DelayScalar δ α] {interior : Interior} {factors : ChannelFactors α}
    {form : BoxForm} {options : EngineOptions α} {withLength : Bool}
    {report : CostReport α × List (Finding α)}
    (h : ofFactors interior factors form options nl = .ok e)
    (hrebuild : e.rebuild nl withLength = .ok (e', report)) :
    e'.pending = false ∧ e'.connections.IsFor nl := by
  have hrebuilt := rebuilding_of_rebuild hrebuild
  rw [hrebuilt.pending, hrebuilt.connections, (rebuilding_ofFactors h).connections]
  exact ⟨idle_ofFactors h, ConnectionTable.isFor_blank nl⟩

/-- Where a new engine was built, the pins of all nets that count have sites. -/
theorem sited_of_ofFactors [DelayScalar δ α] {interior : Interior} {factors : ChannelFactors α}
    {form : BoxForm} {options : EngineOptions α} (hnets : nl.nets.size ≤ Word.size32)
    (h : ofFactors interior factors form options nl = .ok e) (hc : nl.Counts n net driver) :
    nl.Sited interior net driver := by
  have hlt := (Array.getElem?_eq_some_iff.1 hc.entry).1
  have hmem : n ∈ (unmeasured (δ := δ) interior factors form options nl).netIds :=
    (mem_netIds (by simpa using hnets)).2 (by simpa using hlt)
  obtain ⟨s, hs⟩ : ∃ s, (unmeasured (δ := δ) interior factors form options nl).nets[n.toNat]? =
      some s := ⟨_, Array.getElem?_eq_getElem (by simpa using hlt)⟩
  obtain ⟨s', -, hrebuilt⟩ := (rebuilding_ofFactors h).rebuilt n hmem s hs
  cases hrebuilt with
  | ignored hnet hignored =>
    obtain rfl := Option.some.inj (hnet.symm.trans hc.entry)
    rw [hc.counted] at hignored
    cases hignored
  | counted hnet _ hscan =>
    obtain rfl := Option.some.inj (hnet.symm.trans hc.entry)
    obtain ⟨sites, hsites, -⟩ := Checked.bind_eq_ok.1 hscan
    exact ((Netlist.sitesOf_eq_ok hc.entry hc.driven).1 hsites).1

/-! ## Recomputations -/

/-- **An engine whose totals can be checked:** it is idle, the committed boxes of every net that
counts have a cost, and, if the timing total is checked as well, there is a place in its table and a
timing for every connection that counts. -/
structure Checkable (nl : Netlist) (timing : Option (TimingInputs δ)) (e : Engine δ α) :
    Prop where
  idle : e.pending = false
  costs : ∀ n ∈ e.countedNets, ∃ cost, e.committedCost n = .ok cost
  timings : timing.isSome → nl.Numbered ∧ e.connections.IsFor nl
  serves : ∀ inputs ∈ timing, inputs.Serves nl

namespace Checkable

variable {timing : Option (TimingInputs δ)} {inputs : TimingInputs δ}

/-- **The box total can be recomputed.** -/
theorem exists_recomputeBoxCost (h : e.Checkable nl timing) :
    ∃ cost, e.recomputeBoxCost = .ok cost := by
  obtain ⟨costs, hcosts⟩ := Checked.exists_mapM h.costs
  exact ⟨_, by rw [Engine.recomputeBoxCost, hcosts, Checked.ok_bind]⟩

variable [DelayScalar δ α]

/-- **The timing total can be recomputed.** -/
theorem exists_recomputeTiming (h : e.Checkable nl (some inputs)) :
    ∃ e' total, e.recomputeTiming nl inputs = .ok (e', total) := by
  obtain ⟨hnl, htable⟩ := h.timings rfl
  obtain ⟨t, total, hrecompute⟩ :=
    ConnectionTable.exists_recompute htable hnl fun _ hc => (h.serves inputs rfl).exists_timed hc
  exact ⟨_, total, recomputeTiming_eq_ok.2 ⟨h.idle, t, hrecompute, rfl⟩⟩

/-- **A check of the totals ends.** -/
theorem exists_checkTotals (h : e.Checkable nl timing) (totals : Totals α) :
    ∃ check, e.checkTotals nl totals timing = .ok check := by
  obtain ⟨box, hbox⟩ := h.exists_recomputeBoxCost
  by_cases hclose : e.IsWithinTolerance totals.box box
  · cases timing with
    | none => exact ⟨_, checkTotals_ends.2 (.boxes hbox hclose)⟩
    | some inputs =>
      obtain ⟨e', total, htiming⟩ := h.exists_recomputeTiming
      by_cases hcloseTiming : e.IsWithinTolerance totals.timing total
      · exact ⟨_, checkTotals_ends.2 (.both hbox hclose htiming hcloseTiming)⟩
      · exact ⟨_, checkTotals_ends.2 (.timingDrift hbox hclose htiming hcloseTiming)⟩
  · exact ⟨_, checkTotals_ends.2 (.boxDrift hbox hclose)⟩

end Checkable

/-- **Between two moves of a session** the totals can be checked. -/
theorem Steady.checkable {timing : Option (TimingInputs δ)} (h : e.Steady nl)
    (hserves : ∀ inputs ∈ timing, inputs.Serves nl) : e.Checkable nl timing where
  idle := h.idle
  costs n hn := by
    obtain ⟨g, cost, hexact⟩ := h.tracks.exists_exact hn
    exact ⟨cost, hexact.committedCost⟩
  timings _ := ⟨h.tracks.consistent.numbered, h.timings⟩
  serves := hserves

/-! ## Engines between two moves -/

/-- **An engine that is ready:** it is steady and equipped, and the netlist can be routed. -/
structure Ready (nl : Netlist) (e : Engine δ α) : Prop where
  steady : e.Steady nl
  equipped : e.Equipped
  routable : nl.Routable e.interior.layers

/-- A steady engine with the same setup is ready as well. -/
theorem Ready.of_steady (h : e.Ready nl) (hsteady : e'.Steady placed) (hsetup : SameSetup e e')
    (hplaced : placed.Routable e.interior.layers) : e'.Ready placed :=
  ⟨hsteady, h.equipped.of_same hsetup, hsetup.interior ▸ hplaced⟩

namespace Ready

variable [DelayScalar δ α] {timing : Option (TimingInputs δ)} {o : Outcome α}

/-! ## Rebuilds and verifications -/

omit [DelayScalar δ α] in
theorem exists_rebuild (h : e.Ready nl) (withLength : Bool) :
    ∃ e' report, e.rebuild nl withLength = .ok (e', report) :=
  h.equipped.exists_rebuild (h.routable.measurable h.equipped.inside) h.steady.idle
    h.steady.tracks.size.symm h.steady.orderly.committedSize withLength

omit [DelayScalar δ α] in
theorem exists_verify (h : e.Ready nl) : ∃ e' found, e.verify nl = .ok (e', found) := by
  obtain ⟨e', found, hverify, -⟩ :=
    h.steady.tracks.exists_verify h.steady.idle h.steady.orderly.committedSize
      h.steady.orderly.proposedSize
  exact ⟨e', found, hverify⟩

/-! ## Moves -/

/-- **Every move near the device can be evaluated.** -/
theorem exists_evaluate (h : e.Ready nl) (hm : m.Fits nl) (happly : nl.apply m = .ok placed)
    (hplaced : placed.Routable e.interior.layers)
    (hinputs : ∀ inputs ∈ timing, inputs.Serves placed) :
    ∃ e' o, e.evaluate placed m timing = .ok (e', o) := by
  have hsteady := h.steady
  have htracks := hsteady.tracks
  have hlands : e.Lands nl placed m := by
    refine ⟨fun n net driver hc _ => ?_, fun n net driver hc _ =>
      h.routable.length_sinks_lt hc.entry⟩
    exact (hplaced.measurable h.equipped.inside).sited n net driver (hc.apply hm happly)
  obtain ⟨timed, htime⟩ : ∃ timed, e.timeVisits placed m timing = .ok timed := by
    cases timing with
    | none => exact ⟨_, timeVisits_none e placed m⟩
    | some inputs =>
      refine htracks.exists_timeVisits hsteady.timings hm happly fun c hc => ?_
      obtain ⟨timed, htimed⟩ := (hinputs inputs rfl).exists_timed
        ((htracks.mem_retimed hm happly).1 hc).1
      exact ConnectionTable.timeable_of_timed htimed
  exact htracks.exists_evaluate (hsteady.orderly.idle hsteady.idle) hsteady.orderly.proposedSize
    h.equipped.cover hm happly hlands htime

/-- **All that a move proposes passes.** -/
theorem passes (h : e.Ready nl) (hm : m.Fits nl) (happly : nl.apply m = .ok placed)
    (heval : e.evaluate placed m timing = .ok (e', o)) (hn : n ∈ e'.affected) :
    ∃ g, e'.geometry.proposedOf n = .ok g ∧ g.Passes e'.interior e'.factors := by
  have hsteady := h.steady
  have htracks := hsteady.tracks
  have hdone := hsteady.orderly.evaluated heval
  obtain ⟨g, hg, hscan⟩ := htracks.proposed_eq_scan (hsteady.orderly.idle hsteady.idle)
    hsteady.orderly.proposedSize hm happly heval hn
  obtain ⟨net, driver, hc⟩ := htracks.counts_of_touched (hdone.affected ▸ hn)
  have hplaced := Netlist.consistent_apply htracks.consistent hm happly
  obtain ⟨hsited, -, hmeasures⟩ :=
    (scan_eq_ok hplaced htracks.layers htracks.room (hc.apply hm happly)).1 hscan
  have hsetup := hdone.same.setup
  rw [hsetup.interior, hsetup.factors]
  exact ⟨g, entry_of_some hg, hmeasures.passes hsited.encloses h.equipped.cover⟩

end Ready

end Engine

end WireCost
