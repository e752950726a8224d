import WireCost.Proofs.Geometry.Shift
import WireCost.Proofs.Netlist.Relocate

/-! # Where the pins of a net are

* **`Interior.HasSite`** — the sites that pins are clipped to.
* **`Netlist.siteIn`** — the interior site of a pin; **`Netlist.siteMap`** collects those of all
  pins.
* **`Net.bagAt`**, **`Net.sitesAt`** — the sites of a net under an assignment of sites to pins, as a
  bag and as a list.
* **`Netlist.scan_eq_ok`** — scanning a net yields the exact geometry of its sites.
* **`Netlist.siteIn_apply_of_mem`**, **`Netlist.siteIn_apply_of_ne`** — the sites after a move. -/

namespace WireCost

/-! ## The interior -/

namespace Interior

/-- A site inside the interior, on a layer of the device. -/
structure HasSite (i : Interior) (s : Site) : Prop where
  column : 1 ≤ s.x ∧ s.x ≤ i.columns
  row : 1 ≤ s.y ∧ s.y ≤ i.rows
  layer : i.HasLayer s.layer

/-- The nearest line exists when there is a line at all. -/
theorem clamp_eq_ok {last v w : Int} :
    clamp last v = .ok w ↔ 1 ≤ last ∧ max 1 (min last v) = w := by
  unfold clamp
  by_cases hlast : last < 1
  · rw [if_pos hlast]
    simp only [reduceCtorEq, false_iff]
    omega
  · rw [if_neg hlast]
    split
    · rw [Except.ok.injEq]
      omega
    · split
      · rw [Except.ok.injEq]
        omega
      · rw [Except.ok.injEq]
        omega

/-- **Clipping succeeds** on every layer of the device. -/
theorem clip_eq_ok {i : Interior} {s t : Site} : i.clip s = .ok t ↔
    (i.HasLayer s.layer ∧ 1 ≤ i.columns ∧ 1 ≤ i.rows) ∧
      ⟨max 1 (min i.columns s.x), max 1 (min i.rows s.y), s.layer⟩ = t := by
  simp only [clip, Checked.bind_eq_ok, require_eq_ok, clamp_eq_ok, Except.ok.injEq]
  constructor
  · rintro ⟨-, hlayer, x, ⟨hx, rfl⟩, y, ⟨hy, rfl⟩, rfl⟩
    exact ⟨⟨hlayer, hx, hy⟩, rfl⟩
  · rintro ⟨⟨hlayer, hx, hy⟩, rfl⟩
    exact ⟨(), hlayer, _, ⟨hx, rfl⟩, _, ⟨hy, rfl⟩, rfl⟩

/-- What is clipped is inside. -/
theorem hasSite_of_clip {i : Interior} {s t : Site} (h : i.clip s = .ok t) : i.HasSite t := by
  obtain ⟨⟨hlayer, hx, hy⟩, rfl⟩ := clip_eq_ok.1 h
  refine ⟨?_, ?_, hlayer⟩
  · dsimp only
    omega
  · dsimp only
    omega

theorem HasSite.onLayers {i : Interior} {s : Site} (h : i.HasSite s) : s.OnLayers i.layers :=
  h.layer

/-- The interior site of a pin whose block sits at `l`. -/
def siteAt (i : Interior) (l : Location) (offset : Offset) : Checked Site := do
  i.clip (← l.siteAt offset)

/-- A pin has an interior site if its block is on a layer and its column and row are words. -/
theorem exists_siteAt {i : Interior} {l : Location} {offset : Offset}
    (hcolumns : 1 ≤ i.columns) (hrows : 1 ≤ i.rows) (hlayer : i.HasLayer l.layer.toInt)
    (hx : Word.IsInt32 (l.x.toInt + offset.dx.toInt))
    (hy : Word.IsInt32 (l.y.toInt + offset.dy.toInt)) : ∃ s, i.siteAt l offset = .ok s := by
  rw [siteAt, Location.siteAt, Word.int32_of_isInt32 hx, Checked.ok_bind,
    Word.int32_of_isInt32 hy, Checked.ok_bind, Checked.ok_bind]
  exact ⟨_, clip_eq_ok.2 ⟨⟨hlayer, hcolumns, hrows⟩, rfl⟩⟩

theorem hasSite_of_siteAt {i : Interior} {l : Location} {offset : Offset} {s : Site}
    (h : i.siteAt l offset = .ok s) : i.HasSite s := by
  rw [siteAt, Checked.bind_eq_ok] at h
  obtain ⟨_, _, hclip⟩ := h
  exact hasSite_of_clip hclip

end Interior

/-! ## Sites of pins -/

/-- The sites of the pins of a net, under an assignment of sites to pins. -/
def Net.bagAt (net : Net) (driver : PinId) (σ : PinId → Site) : SiteBag :=
  ⟨σ driver, (net.sinks.map σ : List Site)⟩

/-- The sites of a net under an assignment of sites to pins, in the order in which they are
scanned. -/
def Net.sitesAt (net : Net) (driver : PinId) (σ : PinId → Site) : NetSites :=
  ⟨σ driver, net.sinks.map σ⟩

namespace Net

variable {net : Net} {driver p : PinId} {σ τ : PinId → Site} {s : Site}

/-- Only the sites of the net's own pins count. -/
theorem bagAt_congr (h : ∀ p ∈ driver :: net.sinks, σ p = τ p) :
    net.bagAt driver σ = net.bagAt driver τ := by
  have hsinks : net.sinks.map σ = net.sinks.map τ :=
    List.map_congr_left fun p hp => h p (List.mem_cons_of_mem driver hp)
  rw [bagAt, bagAt, h driver List.mem_cons_self, hsinks]

theorem bag_sitesAt (net : Net) (driver : PinId) (σ : PinId → Site) :
    (net.sitesAt driver σ).bag = net.bagAt driver σ := rfl

theorem card_bagAt (net : Net) (driver : PinId) (σ : PinId → Site) :
    (net.bagAt driver σ).sinks.card = net.sinks.length := by
  simp [bagAt]

/-- A pin of the net is where the assignment says. -/
theorem bagAt_holds {drives : Bool} (h : if drives then p = driver else p ∈ net.sinks) :
    (net.bagAt driver σ).Holds ⟨σ p, s, drives⟩ := by
  cases drives with
  | true => exact congrArg σ h
  | false => exact List.mem_map_of_mem h

/-- **Assigning another site to one pin** moves that pin. -/
theorem bagAt_update {drives : Bool} (hnodup : net.sinks.Nodup) (hdriver : driver ∉ net.sinks)
    (h : if drives then p = driver else p ∈ net.sinks) :
    net.bagAt driver (Function.update σ p s) = (net.bagAt driver σ).shift ⟨σ p, s, drives⟩ := by
  cases drives with
  | true =>
    obtain rfl : p = driver := h
    have hsinks : net.sinks.map (Function.update σ p s) = net.sinks.map σ := by
      refine List.map_congr_left fun q hq => Function.update_of_ne ?_ s σ
      rintro rfl
      exact hdriver hq
    rw [SiteBag.shift, if_pos rfl, bagAt, bagAt, Function.update_self, hsinks]
  | false =>
    have hmem : p ∈ net.sinks := h
    have hne : driver ≠ p := by
      rintro rfl
      exact hdriver hmem
    -- take the sink out, assign, and put it back
    have hsplit : (net.sinks : Multiset PinId) = p ::ₘ (net.sinks.erase p : List PinId) := by
      rw [Multiset.cons_coe, Multiset.coe_eq_coe]
      exact List.perm_cons_erase hmem
    have hothers : ((net.sinks.erase p).map (Function.update σ p s) : Multiset Site) =
        (net.sinks.erase p).map σ := by
      congr 1
      refine List.map_congr_left fun q hq => Function.update_of_ne ?_ s σ
      rintro rfl
      exact hnodup.not_mem_erase hq
    have hnew : (net.sinks.map (Function.update σ p s) : Multiset Site) =
        s ::ₘ (net.sinks.erase p).map σ := by
      rw [← Multiset.map_coe, hsplit, Multiset.map_cons, Function.update_self, Multiset.map_coe,
        hothers]
    have hold : (net.sinks.map σ : Multiset Site) = σ p ::ₘ (net.sinks.erase p).map σ := by
      rw [← Multiset.map_coe, hsplit, Multiset.map_cons, Multiset.map_coe]
    simp only [SiteBag.shift, bagAt, hnew, hold, Function.update_of_ne hne,
      Multiset.erase_cons_head, Bool.false_eq_true, if_false]

end Net

namespace Netlist

variable {nl placed : Netlist} {interior : Interior} {n : NetId} {net : Net} {driver p : PinId}
  {pin : Pin} {m : Move} {r : Relocation} {form : BoxForm} {g : Geometry}

/-- The interior site of a pin. -/
def siteIn (nl : Netlist) (interior : Interior) (p : PinId) : Checked Site := do
  interior.clip (← nl.siteOf p)

/-- The interior sites of all pins that have one. -/
def siteMap (nl : Netlist) (interior : Interior) (p : PinId) : Site :=
  match nl.siteIn interior p with
  | .ok s => s
  | .error _ => default

theorem siteMap_of_siteIn {s : Site} (h : nl.siteIn interior p = .ok s) :
    nl.siteMap interior p = s := by
  rw [siteMap, h]

/-- The site of a pin comes from its block. -/
theorem siteIn_of_block {b : Block} (hpin : nl.pins[p.toNat]? = some pin)
    (hb : nl.blocks[pin.block.toNat]? = some b) :
    nl.siteIn interior p = interior.siteAt b.location pin.offset := by
  rw [siteIn, siteOf, Netlist.pin, entry_of_some hpin, Checked.ok_bind, Netlist.block,
    entry_of_some hb, Checked.ok_bind]
  rfl

theorem hasSite_of_siteIn {s : Site} (h : nl.siteIn interior p = .ok s) : interior.HasSite s := by
  rw [siteIn, Checked.bind_eq_ok] at h
  obtain ⟨_, _, hclip⟩ := h
  exact Interior.hasSite_of_clip hclip

/-! ## Sites of a net -/

/-- All pins of a net have interior sites. -/
def Sited (nl : Netlist) (interior : Interior) (net : Net) (driver : PinId) : Prop :=
  ∀ p ∈ driver :: net.sinks, nl.siteIn interior p = .ok (nl.siteMap interior p)

/-- The sites of a net are those of its pins. -/
theorem sitesOf_eq_ok {sites : NetSites} (hnet : nl.nets[n.toNat]? = some net)
    (hdriver : net.driver = some driver) : nl.sitesOf interior n = .ok sites ↔
      nl.Sited interior net driver ∧
        ⟨nl.siteMap interior driver, net.sinks.map (nl.siteMap interior)⟩ = sites := by
  have hof : nl.driverOf n = .ok driver := by
    rw [driverOf, Netlist.net, entry_of_some hnet, Checked.ok_bind, hdriver]
  have hsites : nl.sitesOf interior n = (do
      let site ← nl.siteIn interior driver
      let sinks ← net.sinks.mapM (nl.siteIn interior)
      .ok ⟨site, sinks⟩) := by
    rw [sitesOf, hof, Checked.ok_bind, Netlist.net, entry_of_some hnet]
    simp only [siteIn, bind_assoc, Checked.ok_bind]
    rfl
  simp only [hsites, Checked.bind_eq_ok, Checked.mapM_eq_ok, Except.ok.injEq]
  constructor
  · rintro ⟨site, hsite, sinks, hsinks, rfl⟩
    -- the scan succeeded, so every sink has a site, and the list holds them in order
    have hmap : ∀ p ∈ net.sinks, nl.siteIn interior p = .ok (nl.siteMap interior p) := by
      intro p hp
      have hmem : nl.siteIn interior p ∈ sinks.map Except.ok := hsinks ▸ List.mem_map_of_mem hp
      obtain ⟨s, -, hs⟩ := List.mem_map.1 hmem
      rw [siteMap_of_siteIn hs.symm, hs]
    have hlist : net.sinks.map (nl.siteMap interior) = sinks := by
      rw [List.map_congr_left hmap, ← Function.comp_def, ← List.map_map] at hsinks
      exact List.map_injective_iff.2 (fun _ _ => Except.ok.inj) hsinks
    refine ⟨?_, by rw [siteMap_of_siteIn hsite, hlist]⟩
    intro p hp
    obtain rfl | hp := List.mem_cons.1 hp
    · rw [siteMap_of_siteIn hsite, hsite]
    · exact hmap p hp
  · rintro ⟨hsited, rfl⟩
    refine ⟨_, hsited driver List.mem_cons_self, _, ?_, rfl⟩
    rw [List.map_map]
    exact List.map_congr_left fun p hp => hsited p (List.mem_cons_of_mem driver hp)

/-- The sinks of a net whose pins have sites are on layers of the device. -/
theorem Sited.onLayers (h : nl.Sited interior net driver) :
    ∀ s ∈ net.sinks.map (nl.siteMap interior), s.OnLayers interior.layers := by
  intro s hs
  obtain ⟨p, hp, rfl⟩ := List.mem_map.1 hs
  exact (hasSite_of_siteIn (h p (List.mem_cons_of_mem driver hp))).onLayers

/-- **Scanning a net yields the exact geometry of its sites,** as long as all its pins have sites
and the sinks of each layer can be counted. -/
theorem scan_eq_ok (hroom : net.sinks.length + 1 < Word.size32)
    (hnet : nl.nets[n.toNat]? = some net) (hdriver : net.driver = some driver)
    (hl : interior.layers ≤ Word.size64) :
    (nl.sitesOf interior n >>= Geometry.scan form interior.layers) = .ok g ↔
      nl.Sited interior net driver ∧ (net.bagAt driver (nl.siteMap interior)).Fits ∧
        g.Measures form interior.layers (net.bagAt driver (nl.siteMap interior)) := by
  simp only [Checked.bind_eq_ok, sitesOf_eq_ok hnet hdriver]
  rw [← List.length_map (f := nl.siteMap interior)] at hroom
  have hscan (hsited : nl.Sited interior net driver) :
      Geometry.scan form interior.layers
          ⟨nl.siteMap interior driver, net.sinks.map (nl.siteMap interior)⟩ = .ok g ↔
        (net.bagAt driver (nl.siteMap interior)).Fits ∧
          g.Measures form interior.layers (net.bagAt driver (nl.siteMap interior)) :=
    Geometry.scan_eq_ok hl hsited.onLayers hroom
  constructor
  · rintro ⟨sites, ⟨hsited, rfl⟩, h⟩
    exact ⟨hsited, (hscan hsited).1 h⟩
  · rintro ⟨hsited, h⟩
    exact ⟨_, ⟨hsited, rfl⟩, (hscan hsited).2 h⟩

/-- **Scanning a net succeeds** under these conditions. -/
theorem exists_scan (hroom : net.sinks.length + 1 < Word.size32)
    (hnet : nl.nets[n.toNat]? = some net) (hdriver : net.driver = some driver)
    (hl : interior.layers ≤ Word.size64) (hsited : nl.Sited interior net driver)
    (hfits : (net.bagAt driver (nl.siteMap interior)).Fits) :
    ∃ g, (nl.sitesOf interior n >>= Geometry.scan form interior.layers) = .ok g := by
  have hcountable : (net.sitesAt driver (nl.siteMap interior)).bag.Countable form :=
    .of_card_lt hfits (by rwa [Net.bag_sitesAt, Net.card_bagAt])
  obtain ⟨g, hscan, -⟩ := Geometry.exists_scan hl hsited.onLayers hcountable
  rw [(sitesOf_eq_ok hnet hdriver).2 ⟨hsited, rfl⟩, Checked.ok_bind]
  exact ⟨g, hscan⟩

/-! ## Sites after a move -/

variable (interior)

/-- A pin of a relocated block goes from the old location to the new one. -/
theorem siteIn_apply_of_mem (h : m.Fits nl) (happly : nl.apply m = .ok placed)
    (hr : r ∈ m.relocations) (hpin : nl.pins[p.toNat]? = some pin) (hblock : pin.block = r.block) :
    nl.siteIn interior p = interior.siteAt r.source pin.offset ∧
      placed.siteIn interior p = interior.siteAt r.target pin.offset := by
  obtain rfl := (apply_eq_ok h).1 happly
  obtain ⟨b, hb, hstart⟩ := h.starts r hr
  rw [← hblock] at hb
  have hb' := getElem?_relocate nl (·.target) m.relocations pin.block.toNat
  rw [hb, Option.map_some, hblock, relocateBlock_of_mem h.distinct hr, ← hblock] at hb'
  have hpin' : (nl.relocate (·.target) m.relocations).pins[p.toNat]? = some pin := hpin
  constructor
  · rw [siteIn_of_block hpin hb, hstart]
  · rw [siteIn_of_block hpin' hb']

/-- **A pin of another block** stays where it is. -/
theorem siteOf_apply_of_ne (h : m.Fits nl) (happly : nl.apply m = .ok placed)
    (hpin : nl.pins[p.toNat]? = some pin) (hne : ∀ r ∈ m.relocations, pin.block ≠ r.block) :
    placed.siteOf p = nl.siteOf p := by
  obtain rfl := (apply_eq_ok h).1 happly
  have hpin' : (nl.relocate (·.target) m.relocations).pins[p.toNat]? = some pin := hpin
  have hblock : (nl.relocate (·.target) m.relocations).blocks[pin.block.toNat]? =
      nl.blocks[pin.block.toNat]? := by
    rw [getElem?_relocate]
    cases hb : nl.blocks[pin.block.toNat]? with
    | none => rfl
    | some b =>
      have hstay : ∀ r ∈ m.relocations, r.block.toNat ≠ pin.block.toNat := fun r hr heq =>
        hne r hr (BlockId.toNat_inj.1 heq).symm
      rw [Option.map_some, relocateBlock_of_forall_ne hstay]
  have hentry : entry (nl.relocate (·.target) m.relocations).blocks pin.block.toNat =
      entry nl.blocks pin.block.toNat := by
    rw [entry, entry, hblock]
  simp only [siteOf, Netlist.pin, Netlist.block, entry_of_some hpin, entry_of_some hpin',
    Checked.ok_bind, hentry]

/-- So does its interior site. -/
theorem siteIn_apply_of_ne (h : m.Fits nl) (happly : nl.apply m = .ok placed)
    (hpin : nl.pins[p.toNat]? = some pin) (hne : ∀ r ∈ m.relocations, pin.block ≠ r.block) :
    placed.siteIn interior p = nl.siteIn interior p := by
  rw [siteIn, siteIn, siteOf_apply_of_ne h happly hpin hne]

end Netlist

end WireCost
