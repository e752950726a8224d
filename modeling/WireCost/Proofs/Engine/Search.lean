import WireCost.Proofs.Device
import WireCost.Proofs.Engine.Replay
import WireCost.Proofs.Engine.Tracking
import WireCost.Proofs.Netlist.Built

/-! # Runs of the search

A run of the search tries moves one after the other, and accepts or rejects each of them.

* **`Engine.Search`** — the placements and engines that such runs lead to.
* **`Engine.Settled`** — between two moves the engine is orderly and idle, it tracks the placement,
  and it still is an engine for its device and settings.
* **`Engine.Settled.accept`**, **`Engine.Settled.reject`** — trying a move keeps that up.
* **`Engine.Search.settled`** — it holds all along every run. -/

namespace WireCost.Engine

variable {δ α : Type} [CostScalar α] {e e' e'' : Engine δ α} {nl placed : Netlist} {n : NetId}
  {net : Net} {driver : PinId} {m : Move} {device : Device} {settings : CostSettings α}

/-! ## Tracking the placement -/

/-- Tracking a placement is no matter of leftovers. -/
theorem Alike.tracks (h : Alike e e') (htracks : e.Tracks nl) : e'.Tracks nl := by
  rw [h.same]
  refine ⟨htracks.consistent, htracks.size, htracks.layers, htracks.room, htracks.ignored, ?_⟩
  intro n net hnet hcounted
  obtain ⟨g, cost, hscan, hcosts, hgeometry, hstate⟩ := htracks.exact n net hnet hcounted
  exact ⟨g, cost, hscan, hcosts, hgeometry, hstate⟩

/-- **A rebuild starts tracking** the placement that it looks at. -/
theorem tracks_of_rebuilding (hnl : nl.Consistent) (hsize : e.nets.size = nl.nets.size)
    (hlayers : e.geometry.layers = e.interior.layers) (hroom : e.interior.layers ≤ Word.size64)
    (h : Rebuilding e nl e.netIds e') : e'.Tracks nl := by
  have hids : ∀ {n : NetId} {net : Net}, nl.nets[n.toNat]? = some net →
      n ∈ e.netIds ∧ ∃ s, e.nets[n.toNat]? = some s := by
    intro n net hnet
    have hlt : n.toNat < e.nets.size := by
      rw [hsize]
      exact (Array.getElem?_eq_some_iff.1 hnet).1
    have hall : e.nets.size ≤ Word.size32 := by
      rw [hsize]
      exact hnl.nets.room.le
    exact ⟨(mem_netIds hall).2 hlt, _, Array.getElem?_eq_getElem hlt⟩
  refine ⟨hnl, h.netsSize.trans hsize, by rw [h.rest]; exact hlayers, by rw [h.rest]; exact hroom,
    ?_, ?_⟩
  · intro n net s' hnet hs'
    obtain ⟨hmem, s, hs⟩ := hids hnet
    obtain ⟨s₁, hs₁, hrebuilt⟩ := h.rebuilt n hmem s hs
    obtain rfl := Option.some.inj (hs'.symm.trans hs₁)
    cases hrebuilt with
    | ignored hnet' hignored =>
      obtain rfl := Option.some.inj (hnet.symm.trans hnet')
      exact hignored.symm
    | counted hnet' hcounted =>
      obtain rfl := Option.some.inj (hnet.symm.trans hnet')
      exact hcounted.symm
  · intro n net hnet hcounted
    obtain ⟨hmem, s, hs⟩ := hids hnet
    obtain ⟨s₁, hs₁, hrebuilt⟩ := h.rebuilt n hmem s hs
    cases hrebuilt with
    -- the rebuild looked at this very net, which is not ignored
    | ignored hnet' hignored =>
      obtain rfl := Option.some.inj (hnet.symm.trans hnet')
      rw [hcounted] at hignored
      cases hignored
    | @counted _ g cost _ _ hscan hcost hnew =>
      refine ⟨g, cost, ?_, ?_, hnew, _, hs₁, rfl⟩
      · rw [h.rest]
        exact hscan
      · rw [h.rest]
        exact hcost

/-- **A new engine tracks** the placement that it is built for. -/
theorem tracks_ofFactors [DelayScalar δ α] {interior : Interior} {factors : ChannelFactors α}
    {form : BoxForm} {options : EngineOptions α} (hnl : nl.Consistent)
    (hlayers : interior.layers ≤ Word.size64)
    (h : ofFactors interior factors form options nl = .ok e) : e.Tracks nl :=
  tracks_of_rebuilding hnl (by simp) rfl hlayers (rebuilding_ofFactors h)

/-- A net none of whose pins is visited gives the same geometry before and after a move. -/
theorem Tracks.scan_apply (h : e.Tracks nl) (hc : nl.Counts n net driver) (hm : m.Fits nl)
    (happly : nl.apply m = .ok placed)
    (hstay : ∀ p ∈ driver :: net.sinks, p ∉ (placed.visits m).map Prod.snd) {g : Geometry}
    (hscan : e.geometry.scan nl e.interior n = .ok g) :
    e.geometry.scan placed e.interior n = .ok g := by
  have hplaced := Netlist.consistent_apply h.consistent hm happly
  have hc' := hc.apply hm happly
  obtain ⟨hsited, hfits, hmeasures⟩ := (scan_eq_ok h.consistent h.layers h.room hc).1 hscan
  -- its pins stay, so the same sites are scanned
  have hsame : ∀ p ∈ driver :: net.sinks,
      placed.siteIn e.interior p = nl.siteIn e.interior p := by
    intro p hp
    exact Netlist.siteIn_apply_of_notMem_visits h.consistent hc hm happly hp (hstay p hp)
  have hmap : ∀ p ∈ driver :: net.sinks,
      placed.siteMap e.interior p = nl.siteMap e.interior p := by
    intro p hp
    rw [Netlist.siteMap, Netlist.siteMap, hsame p hp]
  rw [scan_eq_ok hplaced h.layers h.room hc', Net.bagAt_congr hmap]
  refine ⟨fun p hp => ?_, hfits, hmeasures⟩
  rw [hsame p hp, hmap p hp, hsited p hp]

variable [DelayScalar δ α] {timing : Option (TimingInputs δ)} {o : Outcome α}

omit [DelayScalar δ α] in
/-- A net that is not touched has no visited pin. -/
theorem Tracks.notMem_visits (h : e.Tracks nl) (hc : nl.Counts n net driver)
    (hpins : placed.pins = nl.pins) (hn : n ∉ e.touchedNets placed (placed.visits m)) :
    ∀ p ∈ driver :: net.sinks, p ∉ (placed.visits m).map Prod.snd := by
  intro p hp hmem
  obtain ⟨v, hv, rfl⟩ := List.mem_map.1 hmem
  obtain ⟨pin, hpin, hid⟩ := (Netlist.mem_pins_iff h.consistent hc).1 hp
  refine hn (mem_touchedNets.2 ⟨v, hv, visitedNet_eq_some.2 ⟨⟨pin, ?_, hid⟩, h.state hc⟩⟩)
  rw [hpins, hpin]

/-- **A touched net** is committed exactly for the new placement. -/
theorem Tracks.exact_touched (h : e.Tracks nl) (horderly : e.Orderly) (hm : m.Fits nl)
    (happly : nl.apply m = .ok placed) (heval : e.evaluate placed m timing = .ok (e', o))
    (haccepted : Accepted e' e'') (hn : n ∈ e'.affected) :
    ∃ g cost, e''.Exact placed n g cost := by
  have hdone := horderly.evaluated heval
  have hsetup := hdone.same.setup.trans haccepted.setup
  have hidle := horderly.idle (evaluate_eq_ok.1 heval).1
  obtain ⟨g, hg, hscan⟩ := h.proposed_eq_scan hidle horderly.proposedSize hm happly heval hn
  obtain ⟨g', s, cost, hproposes, hs, hcost, -⟩ := hdone.costed n hn
  obtain rfl := Option.some.inj (hg.symm.trans hproposes.geometry)
  have hmem := NetId.toNat_mem_map.2 hn
  refine ⟨g, cost, (hsetup.scan placed n).trans hscan, ?_, ?_, NetState.accept s, ?_, ?_⟩
  · rw [haccepted.setup.cost]
    exact hproposes.cost
  · rw [haccepted.geometries, if_pos hmem, hg]
  · rw [haccepted.nets, if_pos hmem, hs, Option.map_some]
  · rw [NetState.accept, hcost]
    rfl

/-- **A net that is not touched** stays committed exactly, since none of its pins has moved. -/
theorem Tracks.exact_untouched (h : e.Tracks nl) (horderly : e.Orderly) (hm : m.Fits nl)
    (happly : nl.apply m = .ok placed) (heval : e.evaluate placed m timing = .ok (e', o))
    (haccepted : Accepted e' e'') (hc : nl.Counts n net driver) (hn : n ∉ e'.affected) :
    ∃ g cost, e''.Exact placed n g cost := by
  have hdone := horderly.evaluated heval
  have hsetup := hdone.same.setup.trans haccepted.setup
  have hmem : n.toNat ∉ e'.affected.map NetId.toNat := mt NetId.toNat_mem_map.1 hn
  obtain ⟨g, cost, hexact⟩ := h.exact n net hc.entry hc.counted
  have hstay := h.notMem_visits (m := m) hc (Netlist.apply_pins_nets hm happly).1
    (hdone.affected ▸ hn)
  have hscan := h.scan_apply hc hm happly hstay hexact.scan
  refine ⟨g, cost, (hsetup.scan placed n).trans hscan, ?_, ?_, ?_⟩
  · rw [hsetup.cost]
    exact hexact.costs
  · rw [haccepted.geometries, if_neg hmem, hdone.same.geometries]
    exact hexact.geometry
  · rw [haccepted.nets, if_neg hmem, hdone.nets _ hmem]
    exact hexact.state

/-- **After a commit** the engine tracks the new placement. -/
theorem Tracks.commit (h : e.Tracks nl) (horderly : e.Orderly) (hm : m.Fits nl)
    (happly : nl.apply m = .ok placed) (heval : e.evaluate placed m timing = .ok (e', o))
    (hcommit : e'.commit = .ok e'') : e''.Tracks placed := by
  have hdone := horderly.evaluated heval
  have hsame := hdone.same
  have haccepted := (horderly.evaluate heval).accepted hcommit
  have hsetup := hsame.setup.trans haccepted.setup
  obtain ⟨-, hnets⟩ := Netlist.apply_pins_nets hm happly
  refine ⟨Netlist.consistent_apply h.consistent hm happly, ?_, ?_, ?_, ?_, ?_⟩
  · rw [haccepted.netsSize, hsame.nets_size, h.size, hnets]
  · rw [hsetup.layers, hsetup.interior, h.layers]
  · rw [hsetup.interior]
    exact h.room
  · intro n net s'' hnet hs''
    rw [hnets] at hnet
    obtain ⟨s', hs', hflag⟩ := haccepted.net hs''
    obtain ⟨s, hs, -, hignored⟩ := hsame.net hs'
    rw [hflag, hignored, h.ignored n net s hnet hs]
  · intro n net hnet hcounted
    rw [hnets] at hnet
    obtain ⟨driver, hc⟩ := h.counts hnet hcounted
    -- a touched net commits its scan, another one keeps what it had
    by_cases hn : n ∈ e'.affected
    · exact h.exact_touched horderly hm happly heval haccepted hn
    · exact h.exact_untouched horderly hm happly heval haccepted hc hn

/-! ## Settled engines -/

/-- **An engine between two moves of a search:** it is orderly and idle, tracks the placement, and
belongs to the device and the settings. -/
structure Settled (device : Device) (settings : CostSettings α) (nl : Netlist) (e : Engine δ α) :
    Prop where
  orderly : e.Orderly
  idle : e.pending = false
  tracks : e.Tracks nl
  interior : Interior.ofDevice device = .ok (.ok e.interior)
  factors : ∃ bare, ChannelFactors.ofDevice device settings.exponent = .ok (e.factors, bare)
  form : e.form = formFor settings.form e.interior.layers
  options : e.options = ⟨settings.smallNet, settings.tolerance⟩
  room : GeometryTable.requireRoom e.form nl.nets.size e.interior.layers = .ok ()

/-- **What is proposed** for a net that a move touches is a scan of its new sites. -/
theorem Settled.proposed_eq_scan (h : Settled device settings nl e) (hm : m.Fits nl)
    (happly : nl.apply m = .ok placed) (heval : e.evaluate placed m timing = .ok (e', o))
    (hn : n ∈ e'.affected) :
    ∃ g, e'.geometry.proposed[n.toNat]? = some g ∧ e.geometry.scan placed e.interior n = .ok g :=
  h.tracks.proposed_eq_scan (h.orderly.idle h.idle) h.orderly.proposedSize hm happly heval hn

/-- **A new engine is settled.** -/
theorem settled_ofDevice {findings : List (Finding α)} (hnl : nl.Consistent)
    (h : ofDevice nl device settings = .ok (.ok (e, findings))) :
    Settled device settings nl e := by
  obtain ⟨interior, factors, bare, hinterior, hfactors, hnew, -⟩ := ofDevice_eq_ok.1 h
  have htracks := tracks_ofFactors hnl (Interior.layers_le_of_ofDevice hinterior) hnew
  obtain ⟨rfl, rfl, hform, hoptions⟩ := setup_ofFactors hnew
  exact ⟨orderly_ofFactors hnew, idle_ofFactors hnew, htracks, hinterior, ⟨bare, hfactors⟩, hform,
    hoptions, room_ofFactors hnew⟩

omit [DelayScalar δ α] in
/-- What a move leaves alone. -/
theorem Settled.of_same {nl' : Netlist} (h : Settled device settings nl e) (horderly : e'.Orderly)
    (hidle : e'.pending = false) (htracks : e'.Tracks nl') (hsetup : SameSetup e e')
    (hoptions : e'.options = e.options) (hnets : nl'.nets = nl.nets) :
    Settled device settings nl' e' where
  orderly := horderly
  idle := hidle
  tracks := htracks
  interior := by rw [hsetup.interior, h.interior]
  factors := by
    rw [hsetup.factors]
    exact h.factors
  form := by rw [hsetup.form, hsetup.interior, h.form]
  options := by rw [hoptions, h.options]
  room := by rw [hsetup.form, hsetup.interior, hnets, h.room]

/-- **An accepted move** leaves a settled engine behind, at the new placement. -/
theorem Settled.accept (h : Settled device settings nl e) (hm : m.Fits nl)
    (happly : nl.apply m = .ok placed) (heval : e.evaluate placed m timing = .ok (e', o))
    (hcommit : e'.commit = .ok e'') : Settled device settings placed e'' := by
  have hdone := h.orderly.evaluated heval
  have horderly := h.orderly.evaluate heval
  have haccepted := horderly.accepted hcommit
  have hoptions : e''.options = e.options := by rw [haccepted.rest, ← hdone.same.options]
  exact h.of_same (horderly.commit hcommit) haccepted.idle
    (h.tracks.commit h.orderly hm happly heval hcommit)
    (hdone.same.setup.trans haccepted.setup) hoptions (Netlist.apply_pins_nets hm happly).2

/-- **A rejected move** leaves a settled engine behind, at the old placement. -/
theorem Settled.reject (h : Settled device settings nl e)
    (heval : e.evaluate placed m timing = .ok (e', o)) (hrollback : e'.rollback = .ok e'') :
    Settled device settings nl e'' := by
  have htwins := h.orderly.twins_of_rollback heval hrollback
  have halike := htwins.alike
  exact h.of_same ((h.orderly.evaluate heval).rollback hrollback)
    (halike.pending.trans h.idle) (halike.tracks h.tracks) halike.setup halike.options rfl

/-! ## Runs -/

/-- **The placements and engines of a search.** It starts with a new engine for a built netlist. In
each step a move is applied and evaluated, and then it is either committed, or rolled back and
reverted. -/
inductive Search (device : Device) (settings : CostSettings α) : Netlist → Engine δ α → Prop where
  | start {nl : Netlist} {e : Engine δ α} {findings : List (Finding α)} (hnl : nl.Built)
      (h : ofDevice nl device settings = .ok (.ok (e, findings))) : Search device settings nl e
  | accept {nl placed : Netlist} {m : Move} {timing : Option (TimingInputs δ)} {o : Outcome α}
      {e e' e'' : Engine δ α} (h : Search device settings nl e) (hm : m.Fits nl)
      (happly : nl.apply m = .ok placed) (heval : e.evaluate placed m timing = .ok (e', o))
      (hcommit : e'.commit = .ok e'') : Search device settings placed e''
  | reject {nl placed nl' : Netlist} {m : Move} {timing : Option (TimingInputs δ)} {o : Outcome α}
      {e e' e'' : Engine δ α} (h : Search device settings nl e) (hm : m.Fits nl)
      (happly : nl.apply m = .ok placed) (heval : e.evaluate placed m timing = .ok (e', o))
      (hrollback : e'.rollback = .ok e'') (hrevert : placed.revert m = .ok nl') :
      Search device settings nl' e''

/-- **Along every run of the search** the engine is settled between two moves. -/
theorem Search.settled (h : Search device settings nl e) : Settled device settings nl e := by
  induction h with
  | start hnl h => exact settled_ofDevice hnl.consistent h
  | accept _ hm happly heval hcommit ih => exact ih.accept hm happly heval hcommit
  | reject _ hm happly heval hrollback hrevert ih =>
    obtain rfl := Netlist.eq_of_revert hm happly hrevert
    exact ih.reject heval hrollback

end WireCost.Engine

/-! ## A small run -/

namespace WireCost.Sample

theorem search_engine : Engine.Search device settings netlist engine := by
  obtain ⟨findings, h⟩ := engine_eq
  exact .start built_netlist h

end WireCost.Sample
