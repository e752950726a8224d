import WireCost.Proofs.Engine.Accounting
import WireCost.Proofs.Netlist.Sites

/-! # Geometries in the middle of an evaluation

While an evaluation visits the pins that a move takes along, some pins count at their new sites
already and others still at their old ones.

* **`Engine.Tracks`** — the committed geometries and costs are those of the current placement.
* **`Netlist.sitesAfter`** — the sites of pins of which some have moved already.
* **`Engine.Midway`** — what is proposed for a net after some of the visits.
* **`Engine.Midway.follow`**, **`Engine.Amid.visit`** — a visit keeps that up.
* **`Engine.Tracks.proposed_eq_scan`** — after all visits, what is proposed for a touched net is
  what its pins give at their new sites. -/

namespace WireCost

variable {δ α : Type}

/-! ## Exact engines -/

/-- A net that counts: it is not ignored, and it has a driver. -/
structure Netlist.Counts (nl : Netlist) (n : NetId) (net : Net) (driver : PinId) : Prop where
  entry : nl.nets[n.toNat]? = some net
  counted : net.ignored = false
  driven : net.driver = some driver

/-- The sinks of a net that counts, and its driver beside them, can be counted by a word of 32
bits. -/
theorem Netlist.Counts.length_sinks_lt {nl : Netlist} {n : NetId} {net : Net} {driver : PinId}
    (h : nl.Counts n net driver) (hnl : nl.Consistent) : net.sinks.length + 1 < Word.size32 :=
  hnl.length_sinks_lt h.entry (by rw [h.driven]; rfl)

namespace Engine

section

variable [CostScalar α]

/-- A net is committed at the geometry that its pins give, and at the cost of that geometry. -/
structure Exact (e : Engine δ α) (nl : Netlist) (n : NetId) (g : Geometry) (cost : α) : Prop where
  scan : e.geometry.scan nl e.interior n = .ok g
  costs : g.cost e.form e.factors = .ok cost
  geometry : e.geometry.committed[n.toNat]? = some g
  state : ∃ s, e.nets[n.toNat]? = some s ∧ s.cost = cost

/-- **The engine tracks a placement:** it ignores the same nets, and every other net is committed
exactly. -/
structure Tracks (e : Engine δ α) (nl : Netlist) : Prop where
  consistent : nl.Consistent
  size : e.nets.size = nl.nets.size
  layers : e.geometry.layers = e.interior.layers
  room : e.interior.layers ≤ Word.size64
  ignored : ∀ (n : NetId) (net : Net) (s : NetState α), nl.nets[n.toNat]? = some net →
    e.nets[n.toNat]? = some s → s.ignored = net.ignored
  exact : ∀ (n : NetId) (net : Net), nl.nets[n.toNat]? = some net → net.ignored = false →
    ∃ g cost, e.Exact nl n g cost

end

variable {e e₀ e' : Engine δ α} {nl placed : Netlist} {n : NetId} {net : Net} {driver p : PinId}
  {g : Geometry}

/-- There are no more nets than ids. -/
theorem Tracks.size_le [CostScalar α] (h : e.Tracks nl) : e.nets.size ≤ Word.size32 := by
  rw [h.size]
  exact h.consistent.nets.room.le

/-- A net that can be scanned has a driver. -/
theorem exists_driver_of_scan (hnet : nl.nets[n.toNat]? = some net)
    (h : e.geometry.scan nl e.interior n = .ok g) : ∃ driver, net.driver = some driver := by
  rw [GeometryTable.scan, Checked.bind_eq_ok] at h
  -- the scan starts with the site of the driver
  obtain ⟨sites, hsites, -⟩ := h
  rw [Netlist.sitesOf, Checked.bind_eq_ok] at hsites
  obtain ⟨driver, hdriver, -⟩ := hsites
  rw [Netlist.driverOf, Netlist.net, entry_of_some hnet, Checked.ok_bind] at hdriver
  cases hd : net.driver with
  | none =>
    rw [hd] at hdriver
    cases hdriver
  | some driver => exact ⟨driver, rfl⟩

/-- Scanning a net that counts. -/
theorem scan_eq_ok (hnl : nl.Consistent) (hlayers : e.geometry.layers = e.interior.layers)
    (hroom : e.interior.layers ≤ Word.size64) (hc : nl.Counts n net driver) :
    e.geometry.scan nl e.interior n = .ok g ↔ nl.Sited e.interior net driver ∧
      (net.bagAt driver (nl.siteMap e.interior)).Fits ∧
        g.Measures e.form e.interior.layers (net.bagAt driver (nl.siteMap e.interior)) := by
  rw [GeometryTable.scan, hlayers]
  exact Netlist.scan_eq_ok (hc.length_sinks_lt hnl) hc.entry hc.driven hroom

/-- A net that counts can be scanned if all its pins have sites and its sinks can be counted. -/
theorem exists_scan (hnl : nl.Consistent) (hlayers : e.geometry.layers = e.interior.layers)
    (hroom : e.interior.layers ≤ Word.size64) (hc : nl.Counts n net driver)
    (hsited : nl.Sited e.interior net driver)
    (hfits : (net.bagAt driver (nl.siteMap e.interior)).Fits) :
    ∃ g, e.geometry.scan nl e.interior n = .ok g := by
  simp only [GeometryTable.scan, hlayers]
  exact Netlist.exists_scan (hc.length_sinks_lt hnl) hc.entry hc.driven hroom hsited hfits

/-- What is committed for a net that counts is exact for the sites of its pins. -/
theorem Tracks.measures [CostScalar α] (h : e.Tracks nl) (hc : nl.Counts n net driver) :
    ∃ g, e.geometry.committed[n.toNat]? = some g ∧ nl.Sited e.interior net driver ∧
      (net.bagAt driver (nl.siteMap e.interior)).Fits ∧
        g.Measures e.form e.interior.layers (net.bagAt driver (nl.siteMap e.interior)) := by
  obtain ⟨g, cost, hexact⟩ := h.exact n net hc.entry hc.counted
  exact ⟨g, hexact.geometry, (scan_eq_ok h.consistent h.layers h.room hc).1 hexact.scan⟩

/-- The sites between which a pin of a relocated block moves. -/
theorem shiftOf_eq_ok {r : Relocation} {pin : Pin} {shift : PinShift} :
    e.shiftOf r pin = .ok shift ↔ e.interior.siteAt r.source pin.offset = .ok shift.old ∧
      e.interior.siteAt r.target pin.offset = .ok shift.new ∧
        (pin.direction == .driver) = shift.drives := by
  have hshift : e.shiftOf r pin = (do
      let old ← e.interior.siteAt r.source pin.offset
      let new ← e.interior.siteAt r.target pin.offset
      .ok ⟨old, new, pin.direction == .driver⟩) := by
    simp only [shiftOf, Interior.siteAt, bind_assoc]
  simp only [hshift, Checked.bind_eq_ok, Except.ok.injEq]
  constructor
  · rintro ⟨old, hold, new, hnew, rfl⟩
    exact ⟨hold, hnew, rfl⟩
  · rintro ⟨hold, hnew, hdrives⟩
    exact ⟨_, hold, _, hnew, by rw [hdrives]⟩

end Engine

/-! ## Some of the pins moved -/

namespace Netlist

variable {nl placed : Netlist} {interior : Interior} {done : List PinId} {n : NetId} {net : Net}
  {driver p q : PinId} {pin : Pin} {m : Move} {r : Relocation}

/-- **The sites of pins of which those in `done` have moved.** -/
def sitesAfter (nl placed : Netlist) (interior : Interior) (done : List PinId) (p : PinId) : Site :=
  if p ∈ done then placed.siteMap interior p else nl.siteMap interior p

/-- One more pin moves. -/
theorem sitesAfter_concat : nl.sitesAfter placed interior (done ++ [p]) =
    Function.update (nl.sitesAfter placed interior done) p (placed.siteMap interior p) := by
  funext q
  by_cases hq : q = p
  · subst hq
    rw [Function.update_self, sitesAfter, if_pos (by simp)]
  · rw [Function.update_of_ne hq, sitesAfter, sitesAfter]
    simp only [List.mem_append, List.mem_singleton, hq, or_false]

theorem sitesAfter_of_notMem (h : p ∉ done) :
    nl.sitesAfter placed interior done p = nl.siteMap interior p := if_neg h

/-- The pins of a net that counts are those connected to it. -/
theorem mem_pins_iff (hnl : nl.Consistent) (hc : nl.Counts n net driver) :
    p ∈ driver :: net.sinks ↔ ∃ pin, nl.pins[p.toNat]? = some pin ∧ pin.net = some n := by
  have hpins : net.driver.toList ++ net.sinks = driver :: net.sinks := by rw [hc.driven]; rfl
  rw [← hpins]
  constructor
  · exact hnl.net_of_mem_pins hc.entry
  · rintro ⟨pin, hpin, hid⟩
    exact hnl.mem_pins_of_net hc.entry hpin hid

/-- A pin that is not connected to a net is none of its pins. -/
theorem notMem_pins (hnl : nl.Consistent) (hc : nl.Counts n net driver)
    (hpin : nl.pins[p.toNat]? = some pin) (hne : pin.net ≠ some n) :
    p ∉ driver :: net.sinks := by
  intro hmem
  obtain ⟨pin', hpin', hid⟩ := (mem_pins_iff hnl hc).1 hmem
  obtain rfl := Option.some.inj (hpin.symm.trans hpin')
  exact hne hid

/-- A pin that is connected to a net drives it or is one of its sinks, as its direction says. -/
theorem role_of_net (hnl : nl.Consistent) (hc : nl.Counts n net driver)
    (hpin : nl.pins[p.toNat]? = some pin) (hid : pin.net = some n) :
    if pin.direction == .driver then p = driver else p ∈ net.sinks := by
  obtain ⟨net', hnet', hrole⟩ := hnl.nets.netOf p pin n hpin hid
  obtain rfl : net = net' := Option.some.inj (hc.entry.symm.trans hnet')
  simp only [beq_iff_eq]
  split at hrole
  · rename_i hdriver
    rw [if_pos hdriver]
    exact Option.some.inj (hrole.symm.trans hc.driven)
  · rename_i hsink
    obtain ⟨i, -, hi⟩ := hrole
    rw [if_neg hsink]
    exact List.mem_of_getElem? hi

/-- A pin of a block names it. -/
theorem block_of_mem_pinsOf (hnl : nl.Consistent) (hp : p ∈ nl.pinsOf r.block) :
    ∃ pin, nl.pins[p.toNat]? = some pin ∧ pin.block = r.block := by
  rw [pinsOf] at hp
  cases hb : nl.blocks[r.block.toNat]? with
  | none =>
    rw [hb] at hp
    cases hp
  | some b =>
    rw [hb] at hp
    exact (hnl.blocks.lists r.block b hb p).1 hp

/-- A block lists the pins that name it. -/
theorem mem_pinsOf_of_block (hnl : nl.Consistent) (hpin : nl.pins[p.toNat]? = some pin) :
    p ∈ nl.pinsOf pin.block := by
  obtain ⟨b, hb⟩ := hnl.blocks.blockOf p.toNat pin hpin
  rw [pinsOf, hb]
  exact (hnl.blocks.lists pin.block b hb p).2 ⟨pin, hpin, rfl⟩

/-- A move visits no pin twice. -/
theorem nodup_visits (hnl : nl.Consistent) (hm : (m.relocations.map (·.block)).Nodup) :
    ((nl.visits m).map Prod.snd).Nodup := by
  rw [visits, List.map_flatMap]
  simp only [List.map_map]
  rw [List.nodup_flatMap]
  constructor
  · intro r _
    rw [show (Prod.snd ∘ fun p : PinId => (r, p)) = id from rfl, List.map_id, pinsOf]
    cases hb : nl.blocks[r.block.toNat]? with
    | none => exact List.nodup_nil
    | some b => exact hnl.blocks.once _ b hb
  · -- a pin that two relocations visit would name both blocks
    refine (List.pairwise_map.1 hm).imp fun hne => ?_
    intro p hp hp'
    simp only [show ∀ r : Relocation, (Prod.snd ∘ fun p : PinId => (r, p)) = id from fun _ => rfl,
      List.map_id] at hp hp'
    obtain ⟨pin, hpin, hblock⟩ := block_of_mem_pinsOf hnl hp
    obtain ⟨pin', hpin', hblock'⟩ := block_of_mem_pinsOf hnl hp'
    obtain rfl : pin = pin' := Option.some.inj (hpin.symm.trans hpin')
    exact hne (hblock.symm.trans hblock')

/-- A pin of a relocated block, before and after the move. -/
structure Moves (nl placed : Netlist) (interior : Interior) (r : Relocation) (p : PinId)
    (pin : Pin) : Prop where
  entry : nl.pins[p.toNat]? = some pin
  source : nl.siteIn interior p = interior.siteAt r.source pin.offset
  target : placed.siteIn interior p = interior.siteAt r.target pin.offset

/-- Applying a move leaves the pins and the nets alone. -/
theorem apply_pins_nets (hm : m.Fits nl) (happly : nl.apply m = .ok placed) :
    placed.pins = nl.pins ∧ placed.nets = nl.nets := by
  obtain rfl := (apply_eq_ok hm).1 happly
  exact ⟨rfl, rfl⟩

/-- A net counts as before. -/
theorem Counts.apply (hc : nl.Counts n net driver) (hm : m.Fits nl)
    (happly : nl.apply m = .ok placed) : placed.Counts n net driver where
  entry := by rw [(apply_pins_nets hm happly).2, hc.entry]
  counted := hc.counted
  driven := hc.driven

theorem consistent_apply (hnl : nl.Consistent) (hm : m.Fits nl)
    (happly : nl.apply m = .ok placed) : placed.Consistent := by
  obtain rfl := (apply_eq_ok hm).1 happly
  exact (sameWiring_relocate nl (·.target) m.relocations).consistent hnl

/-- **Every visited pin** is visited once, and goes from its old site to its new one. -/
theorem exists_moves (interior : Interior) {rest visited : List (Relocation × PinId)}
    (hnl : nl.Consistent) (hm : m.Fits nl) (happly : nl.apply m = .ok placed)
    (hvisits : placed.visits m = visited ++ (r, p) :: rest) :
    p ∉ visited.map Prod.snd ∧ ∃ pin, nl.Moves placed interior r p pin := by
  have hplaced := consistent_apply hnl hm happly
  constructor
  · have hnodup := nodup_visits hplaced hm.distinct
    rw [hvisits, List.map_append, List.nodup_append] at hnodup
    intro hmem
    exact hnodup.2.2 p hmem p (by simp) rfl
  · have hv : (r, p) ∈ placed.visits m := by simp [hvisits]
    obtain ⟨r', hr, hp⟩ := List.mem_flatMap.1 hv
    obtain ⟨p', hp', heq⟩ := List.mem_map.1 hp
    cases heq
    obtain ⟨pin, hpin, hblock⟩ := block_of_mem_pinsOf hplaced hp'
    rw [(apply_pins_nets hm happly).1] at hpin
    obtain ⟨hsource, htarget⟩ :=
      siteIn_apply_of_mem interior hm happly hr hpin hblock
    exact ⟨pin, hpin, hsource, htarget⟩

/-- **A pin that is not visited** stays where it is. -/
theorem siteIn_apply_of_notMem_visits (hnl : nl.Consistent) (hc : nl.Counts n net driver)
    (hm : m.Fits nl) (happly : nl.apply m = .ok placed) (hp : p ∈ driver :: net.sinks)
    (hnot : p ∉ (placed.visits m).map Prod.snd) :
    placed.siteIn interior p = nl.siteIn interior p := by
  obtain ⟨pin, hpin, -⟩ := (mem_pins_iff hnl hc).1 hp
  -- were the block of the pin relocated, it would list the pin, and the pin would be visited
  refine siteIn_apply_of_ne interior hm happly hpin fun r hr hblock => hnot ?_
  have hpin' : placed.pins[p.toNat]? = some pin := by
    rw [(apply_pins_nets hm happly).1, hpin]
  have hmem := mem_pinsOf_of_block (consistent_apply hnl hm happly) hpin'
  rw [hblock] at hmem
  refine List.mem_map.2 ⟨(r, p), List.mem_flatMap.2 ⟨r, hr, ?_⟩, rfl⟩
  exact List.mem_map_of_mem hmem

end Netlist

/-! ## Midway -/

namespace Engine

variable {e e₀ e' : Engine δ α} {nl placed : Netlist} {done : List PinId} {n : NetId} {net : Net}
  {driver p : PinId} {pin : Pin} {r : Relocation} {g : Geometry} {g? : Option Geometry}
  {s : NetState α} {update : NetUpdate}

/-- **What is proposed for a net after some of the visits:** anything as long as none of its pins
was visited, and then either the exact geometry of the sites reached so far or a scan of the new
placement. -/
inductive Midway (e₀ : Engine δ α) (nl placed : Netlist) (done : List PinId) (n : NetId)
    (net : Net) (driver : PinId) : NetUpdate → Option Geometry → Prop where
  | untouched {g? : Option Geometry} (hnone : ∀ p ∈ driver :: net.sinks, p ∉ done) :
      Midway e₀ nl placed done n net driver .untouched g?
  | adjusted {g : Geometry} (hsites : ∀ p ∈ driver :: net.sinks, p ∈ done →
        placed.siteIn e₀.interior p = .ok (placed.siteMap e₀.interior p))
      (hfits : (net.bagAt driver (nl.sitesAfter placed e₀.interior done)).Fits)
      (hexact : g.Measures e₀.form e₀.interior.layers
        (net.bagAt driver (nl.sitesAfter placed e₀.interior done))) :
      Midway e₀ nl placed done n net driver .adjusted (some g)
  | rescanned {g : Geometry} (hscan : e₀.geometry.scan placed e₀.interior n = .ok g) :
      Midway e₀ nl placed done n net driver .rescanned (some g)

/-- A pin of another net makes no difference. -/
theorem Midway.of_notMem (h : Midway e₀ nl placed done n net driver update g?)
    (hp : p ∉ driver :: net.sinks) :
    Midway e₀ nl placed (done ++ [p]) n net driver update g? := by
  have hmem : ∀ q ∈ driver :: net.sinks, (q ∈ done ++ [p] ↔ q ∈ done) := by
    intro q hq
    have hne : q ≠ p := by
      rintro rfl
      exact hp hq
    simp [hne]
  have hbag : net.bagAt driver (nl.sitesAfter placed e₀.interior (done ++ [p])) =
      net.bagAt driver (nl.sitesAfter placed e₀.interior done) := by
    refine Net.bagAt_congr fun q hq => ?_
    rw [Netlist.sitesAfter, Netlist.sitesAfter]
    simp only [hmem q hq]
  cases h with
  | untouched hnone => exact .untouched fun q hq => mt (hmem q hq).1 (hnone q hq)
  | adjusted hsites hfits hexact =>
    refine .adjusted (fun q hq hdone => hsites q hq ((hmem q hq).1 hdone)) ?_ ?_
    · rwa [hbag]
    · rwa [hbag]
  | rescanned hscan => exact .rescanned hscan

section

variable [CostScalar α]

/-- What the geometry that is adjusted measures: the sites reached so far. -/
theorem Midway.base (h : Midway e₀ nl placed done n net driver s.update
    e.geometry.proposed[n.toNat]?) (htracks : e₀.Tracks nl) (hc : nl.Counts n net driver)
    (hsame : SameCommitted e₀ e) (hopen : s.update ≠ .rescanned) {base : Geometry}
    (hbase : (e.geometry.side (s.update = .untouched))[n.toNat]? = some base) :
    (∀ p ∈ driver :: net.sinks, p ∈ done →
      placed.siteIn e₀.interior p = .ok (placed.siteMap e₀.interior p)) ∧
    (net.bagAt driver (nl.sitesAfter placed e₀.interior done)).Fits ∧
      base.Measures e₀.form e₀.interior.layers
        (net.bagAt driver (nl.sitesAfter placed e₀.interior done)) := by
  generalize hupdate : s.update = update at h hopen hbase
  generalize hg? : e.geometry.proposed[n.toNat]? = g? at h
  cases h with
  -- no pin has moved yet: the committed geometry, which is exact for the old sites
  | untouched hnone =>
    have hcommitted : e₀.geometry.committed[n.toNat]? = some base := by
      rw [← hsame.geometries]
      exact hbase
    obtain ⟨g, hg, -, hfits, hmeasures⟩ := htracks.measures hc
    obtain rfl : base = g := Option.some.inj (hcommitted.symm.trans hg)
    have hbag : net.bagAt driver (nl.sitesAfter placed e₀.interior done) =
        net.bagAt driver (nl.siteMap e₀.interior) :=
      Net.bagAt_congr fun q hq => Netlist.sitesAfter_of_notMem (hnone q hq)
    rw [hbag]
    exact ⟨fun q hq hdone => absurd hdone (hnone q hq), hfits, hmeasures⟩
  | @adjusted g hsites hfits hexact =>
    obtain rfl : base = g := Option.some.inj (hbase.symm.trans hg?)
    exact ⟨hsites, hfits, hexact⟩
  | rescanned => exact absurd rfl hopen

/-- **Moving one more pin** of the geometry that is adjusted. -/
theorem Midway.follows (h : Midway e₀ nl placed done n net driver s.update
    e.geometry.proposed[n.toNat]?) (htracks : e₀.Tracks nl) (hc : nl.Counts n net driver)
    (hsame : SameCommitted e₀ e) (hp : p ∉ done) (hmoves : nl.Moves placed e₀.interior r p pin)
    (hid : pin.net = some n) (hopen : s.update ≠ .rescanned) {base : Geometry} {shift : PinShift}
    (hbase : (e.geometry.side (s.update = .untouched))[n.toNat]? = some base)
    (hshift : e.shiftOf r pin = .ok shift) :
    placed.siteIn e₀.interior p = .ok (placed.siteMap e₀.interior p) ∧
    net.bagAt driver (nl.sitesAfter placed e₀.interior (done ++ [p])) =
      (net.bagAt driver (nl.sitesAfter placed e₀.interior done)).shift shift ∧
    ∃ o, Geometry.Follows e₀.form e₀.interior.layers base
      (net.bagAt driver (nl.sitesAfter placed e₀.interior done)) shift
      (Geometry.shift? e.geometry.form base shift) o := by
  obtain ⟨-, hfits, hmeasures⟩ := h.base htracks hc hsame hopen hbase
  obtain ⟨hold, hnew, hdrives⟩ := shiftOf_eq_ok.1 hshift
  rw [hsame.interior] at hold hnew
  -- the pin has not been visited, so it still counts at its old site
  have holdSite : nl.sitesAfter placed e₀.interior done p = shift.old := by
    rw [Netlist.sitesAfter_of_notMem hp]
    exact Netlist.siteMap_of_siteIn (hmoves.source.trans hold)
  have hnewSite : placed.siteMap e₀.interior p = shift.new :=
    Netlist.siteMap_of_siteIn (hmoves.target.trans hnew)
  have hrole := Netlist.role_of_net htracks.consistent hc hmoves.entry hid
  rw [hdrives] at hrole
  refine ⟨by rw [hnewSite, hmoves.target, hnew], ?_, ?_⟩
  · have hnodup := htracks.consistent.sinks_nodup hc.entry
    have hdriver := htracks.consistent.driver_notMem_sinks hc.entry hc.driven
    rw [Netlist.sitesAfter_concat, Net.bagAt_update hnodup hdriver hrole, holdSite, hnewSite]
  · have hheld : (net.bagAt driver (nl.sitesAfter placed e₀.interior done)).Holds shift := by
      have hholds := Net.bagAt_holds (σ := nl.sitesAfter placed e₀.interior done)
        (s := shift.new) hrole
      rwa [holdSite] at hholds
    have hroom : (net.bagAt driver (nl.sitesAfter placed e₀.interior done)).sinks.card + 1 <
        Word.size32 := by
      rw [Net.card_bagAt]
      exact hc.length_sinks_lt htracks.consistent
    rw [hsame.form]
    exact hmeasures.shift? htracks.room hheld (Interior.hasSite_of_siteAt hnew).onLayers hfits hroom

/-- **Following a pin** keeps up what is proposed for its net. -/
theorem Midway.follow (h : Midway e₀ nl placed done n net driver s.update
    e.geometry.proposed[n.toNat]?) (htracks : e₀.Tracks nl) (hc : nl.Counts n net driver)
    (hsame : SameCommitted e₀ e) (hs : e.nets[n.toNat]? = some s)
    (hin : n.toNat < e.geometry.proposed.size) (hp : p ∉ done)
    (hmoves : nl.Moves placed e₀.interior r p pin) (hid : pin.net = some n)
    (hfollow : Followed e placed n r pin e') :
    ∃ update, e'.nets[n.toNat]? = some { s with update } ∧
      Midway e₀ nl placed (done ++ [p]) n net driver update e'.geometry.proposed[n.toNat]? := by
  have hproposed : ∀ g update, (e.proposing n g update).geometry.proposed[n.toNat]? = some g :=
    fun g update => Array.getElem?_setIfInBounds_self_of_lt hin
  have hstate : ∀ g update, (e.proposing n g update).nets[n.toNat]? = some { s with update } :=
    fun g update => (onlyNet_proposing hs g update).new
  cases hfollow with
  -- the net was scanned at its new sites before, and that stands
  | already hs' hdone =>
    obtain rfl := Option.some.inj (hs.symm.trans hs')
    rw [hdone] at h
    refine ⟨.rescanned, by rw [hs, ← hdone], ?_⟩
    generalize e.geometry.proposed[n.toNat]? = g? at h
    cases h with
    | rescanned hscan => exact .rescanned hscan
  -- a scan sees all pins at their new sites, visited or not
  | small _ _ _ _ _ hg =>
    refine ⟨.rescanned, hstate _ _, ?_⟩
    rw [hproposed]
    exact .rescanned ((hsame.setup.scan placed n).symm.trans hg)
  | refused _ _ _ _ _ _ _ _ hg =>
    refine ⟨.rescanned, hstate _ _, ?_⟩
    rw [hproposed]
    exact .rescanned ((hsame.setup.scan placed n).symm.trans hg)
  | @adjusted s' _ shift base g hs' hopen _ _ hshift hbase hg =>
    obtain rfl := Option.some.inj (hs.symm.trans hs')
    obtain ⟨hsites, -, -⟩ := h.base htracks hc hsame hopen hbase
    -- the adjusted geometry is exact for the sites after one more pin
    obtain ⟨hsite, hbag, o, hfollows⟩ :=
      h.follows htracks hc hsame hp hmoves hid hopen hbase hshift
    obtain ⟨hfits', rfl⟩ := (hfollows.run_iff _).1 hg
    refine ⟨.adjusted, hstate _ _, ?_⟩
    rw [hproposed]
    refine .adjusted ?_ ?_ ?_
    · intro q hq hdone
      obtain hdone | hdone := List.mem_append.1 hdone
      · exact hsites q hq hdone
      · obtain rfl := List.mem_singleton.1 hdone
        exact hsite
    · rw [hbag]
      exact hfits'.resolve_left (Option.some_ne_none g)
    · rw [hbag]
      exact hfollows.measures g rfl

/-! ## All visits -/

/-- A net that is not ignored counts. -/
theorem Tracks.counts (h : e.Tracks nl) (hnet : nl.nets[n.toNat]? = some net)
    (hcounted : net.ignored = false) : ∃ driver, nl.Counts n net driver := by
  obtain ⟨g, cost, hexact⟩ := h.exact n net hnet hcounted
  obtain ⟨driver, hdriver⟩ := exists_driver_of_scan hnet hexact.scan
  exact ⟨driver, hnet, hcounted, hdriver⟩

/-- The engine does not ignore a net that counts. -/
theorem Tracks.state (h : e.Tracks nl) (hc : nl.Counts n net driver) :
    ∃ s, e.nets[n.toNat]? = some s ∧ s.ignored = false := by
  have hlt : n.toNat < e.nets.size := by
    rw [h.size]
    exact (Array.getElem?_eq_some_iff.1 hc.entry).1
  have hs := Array.getElem?_eq_getElem hlt
  exact ⟨_, hs, (h.ignored n net _ hc.entry hs).trans hc.counted⟩

/-- A net that the engine does not ignore counts. -/
theorem Tracks.counts_of_state (h : e.Tracks nl) (hs : e.nets[n.toNat]? = some s)
    (hcounted : s.ignored = false) : ∃ net driver, nl.Counts n net driver := by
  have hlt : n.toNat < nl.nets.size := by
    rw [← h.size]
    exact (Array.getElem?_eq_some_iff.1 hs).1
  have hnet := Array.getElem?_eq_getElem hlt
  obtain ⟨driver, hc⟩ := h.counts hnet ((h.ignored n _ s hnet hs).symm.trans hcounted)
  exact ⟨_, driver, hc⟩

/-- **A touched net counts.** -/
theorem Tracks.counts_of_touched {visits : List (Relocation × PinId)} (h : e.Tracks nl)
    (hn : n ∈ e.touchedNets placed visits) : ∃ net driver, nl.Counts n net driver := by
  obtain ⟨v, -, hv⟩ := mem_touchedNets.1 hn
  obtain ⟨-, s, hs, hcounted⟩ := visitedNet_eq_some.1 hv
  exact h.counts_of_state hs hcounted

/-- In the middle of an evaluation of `e₀`, after visits of the pins in `done`. -/
structure Amid (e₀ : Engine δ α) (nl placed : Netlist) (done : List PinId) (e : Engine δ α) :
    Prop where
  same : SameCommitted e₀ e
  nets : ∀ (n : NetId) (net : Net) (driver : PinId), nl.Counts n net driver →
    ∃ s, e.nets[n.toNat]? = some s ∧
      Midway e₀ nl placed done n net driver s.update e.geometry.proposed[n.toNat]?

variable [DelayScalar δ α] {m : Move} {timing : Option (TimingInputs δ)} {delta delta' : α}

/-- **A visit** moves one more pin. -/
theorem Amid.visit (h : Amid e₀ nl placed done e) (htracks : e₀.Tracks nl)
    (hroom : e₀.geometry.proposed.size = e₀.nets.size) (hpins : placed.pins = nl.pins)
    (hp : p ∉ done) (hmoves : nl.Moves placed e₀.interior r p pin)
    (hvisit : Visited placed m timing r p e delta e' delta') :
    Amid e₀ nl placed (done ++ [p]) e' := by
  have hsame := h.same.trans hvisit.sameCommitted
  have hentry : placed.pins[p.toNat]? = some pin := by rw [hpins, hmoves.entry]
  refine ⟨hsame, fun n net driver hc => ?_⟩
  have hother (hne : pin.net ≠ some n) : p ∉ driver :: net.sinks :=
    Netlist.notMem_pins htracks.consistent hc hmoves.entry hne
  obtain ⟨s, hs, hmidway⟩ := h.nets n net driver hc
  obtain ⟨s₀, hs₀, hcounted₀⟩ := htracks.state hc
  cases hvisit with
  | passed hpin hpass =>
    obtain rfl := Option.some.inj (hpin.symm.trans hentry)
    refine ⟨s, hs, hmidway.of_notMem (hother fun hid => ?_)⟩
    -- the pin was passed over, so its net is ignored, but this one counts
    obtain ⟨s', hs', hignored⟩ := hpass n hid
    obtain ⟨s₁, hs₁, -, hflag⟩ := h.same.net hs'
    obtain rfl : s₀ = s₁ := Option.some.inj (hs₀.symm.trans hs₁)
    rw [hignored, hcounted₀] at hflag
    cases hflag
  | @counted n' pin' s' e₁ t _ hpin hid hs' hcounted hfollow htime =>
    obtain rfl := Option.some.inj (hpin.symm.trans hentry)
    obtain ⟨cost, htouch, -⟩ := onlyNet_touch hs'
    -- the visit follows its own net, and leaves what is proposed for another one alone
    by_cases heq : n' = n
    · subst heq
      obtain rfl : s = s' := Option.some.inj (hs.symm.trans hs')
      have hin : n'.toNat < (e.touch n' s).geometry.proposed.size := by
        rw [geometry_touch, h.same.size, hroom]
        exact (Array.getElem?_eq_some_iff.1 hs₀).1
      have hmidway' : Midway e₀ nl placed done n' net driver
          { s with proposed := some cost }.update
          (e.touch n' s).geometry.proposed[n'.toNat]? := by
        rw [geometry_touch]
        exact hmidway
      obtain ⟨update, hnew, hresult⟩ := hmidway'.follow htracks hc
        (h.same.trans (sameCommitted_touch e n' s)) htouch.new hin hp hmoves hid hfollow
      exact ⟨_, hnew, hresult⟩
    · have hne : n'.toNat ≠ n.toNat := mt NetId.toNat_inj.1 heq
      obtain ⟨s₁, update, -, honly, -⟩ := hfollow.onlyNet
      refine ⟨s, ?_, ?_⟩
      · exact (honly.nets _ hne).trans ((htouch.nets _ hne).trans hs)
      · have hproposed : e₁.geometry.proposed[n.toNat]? = e.geometry.proposed[n.toNat]? :=
          (honly.proposed _ hne).trans (htouch.proposed _ hne)
        have hdifferent : pin'.net ≠ some n := by
          rw [hid]
          exact fun h => heq (Option.some.inj h)
        dsimp only
        rw [hproposed]
        exact hmidway.of_notMem (hother hdifferent)

omit [DelayScalar δ α] in
/-- Before the first visit. -/
theorem Tracks.amid_start (htracks : e₀.Tracks nl) (hidle : e₀.Idle) :
    Amid e₀ nl placed [] { e₀ with pending := true, affected := [] } := by
  refine ⟨⟨rfl, rfl, rfl, rfl, rfl, rfl, rfl, rfl, .refl _⟩, fun n net driver hc => ?_⟩
  obtain ⟨s, hs, -⟩ := htracks.state hc
  refine ⟨s, hs, ?_⟩
  rw [(hidle.nets n.toNat s hs).2]
  exact .untouched fun p _ => List.not_mem_nil

/-- **All visits together** move all pins of the relocated blocks. -/
theorem Tracks.amid (htracks : e₀.Tracks nl) (hidle : e₀.Idle)
    (hroom : e₀.geometry.proposed.size = e₀.nets.size) (hm : m.Fits nl)
    (happly : nl.apply m = .ok placed)
    (h : (placed.visits m).foldlM (fun s v => Engine.visit placed m timing v.1 s v.2)
      ({ e₀ with pending := true, affected := [] }, delta) = .ok (e, delta')) :
    Amid e₀ nl placed ((placed.visits m).map Prod.snd) e := by
  refine Checked.foldlM_induct (c := (e, delta'))
    (fun done s => Amid e₀ nl placed (done.map Prod.snd) s.1) (htracks.amid_start hidle) ?_ h
  rintro done ⟨r, p⟩ rest s s' hvisits hs hstep
  obtain ⟨hnot, pin, hmoves⟩ := Netlist.exists_moves e₀.interior htracks.consistent hm happly
    hvisits
  rw [List.map_append]
  exact hs.visit htracks hroom (Netlist.apply_pins_nets hm happly).1 hnot hmoves
    (visit_eq_ok.1 hstep)

omit [DelayScalar δ α] in
/-- **When all pins have moved,** what is proposed for a touched net is a scan. -/
theorem Midway.scan_eq (h : Midway e₀ nl placed ((placed.visits m).map Prod.snd) n net driver
    update g?) (htracks : e₀.Tracks nl) (hc : nl.Counts n net driver) (hm : m.Fits nl)
    (happly : nl.apply m = .ok placed) (hopen : update ≠ .untouched) :
    ∃ g, g? = some g ∧ e₀.geometry.scan placed e₀.interior n = .ok g := by
  cases h with
  -- a touched net is marked
  | untouched => exact absurd rfl hopen
  | @adjusted g hsites hfits hexact =>
    refine ⟨g, rfl, ?_⟩
    obtain ⟨-, -, hsited, -⟩ := htracks.measures hc
    have hc' := hc.apply hm happly
    -- a pin that was not visited has not moved
    have hstay (p : PinId) (hp : p ∈ driver :: net.sinks)
        (hnot : p ∉ (placed.visits m).map Prod.snd) :
        placed.siteIn e₀.interior p = nl.siteIn e₀.interior p :=
      Netlist.siteIn_apply_of_notMem_visits htracks.consistent hc hm happly hp hnot
    have hbag : net.bagAt driver (nl.sitesAfter placed e₀.interior
        ((placed.visits m).map Prod.snd)) = net.bagAt driver (placed.siteMap e₀.interior) := by
      refine Net.bagAt_congr fun p hp => ?_
      rw [Netlist.sitesAfter]
      split
      · rfl
      · rename_i hnot
        rw [Netlist.siteMap, Netlist.siteMap, hstay p hp hnot]
    rw [hbag] at hfits hexact
    -- an exact geometry of the new sites is what a scan gives
    refine (scan_eq_ok (Netlist.consistent_apply htracks.consistent hm happly) htracks.layers
      htracks.room hc').2 ⟨fun p hp => ?_, hfits, hexact⟩
    by_cases hdone : p ∈ (placed.visits m).map Prod.snd
    · exact hsites p hp hdone
    · rw [Netlist.siteMap, hstay p hp hdone, hsited p hp]
  | @rescanned g hscan => exact ⟨g, rfl, hscan⟩

omit [DelayScalar δ α] in
/-- **After all visits,** what is proposed for a net that they touched is a scan. -/
theorem Amid.exists_scan (h : Amid e₀ nl placed ((placed.visits m).map Prod.snd) e)
    (hmarks : Marks e₀ (e₀.touchedNets placed (placed.visits m)) e) (htracks : e₀.Tracks nl)
    (hm : m.Fits nl) (happly : nl.apply m = .ok placed) (hn : n ∈ e.affected) :
    ∃ net driver s g, nl.Counts n net driver ∧ e.nets[n.toNat]? = some s ∧
      e.geometry.proposed[n.toNat]? = some g ∧
      e₀.geometry.scan placed e₀.interior n = .ok g := by
  rw [hmarks.affected] at hn
  obtain ⟨net, driver, hc⟩ := htracks.counts_of_touched hn
  obtain ⟨s, hs, hmidway⟩ := h.nets n net driver hc
  have hmark := hmarks.marked n.toNat s hs (NetId.toNat_mem_map.2 hn)
  obtain ⟨g, hg, hscan⟩ := hmidway.scan_eq htracks hc hm happly hmark.2
  exact ⟨net, driver, s, g, hc, hs, hg, hscan⟩

/-- **After an evaluation,** what is proposed for a touched net is what its pins give at their new
sites. -/
theorem Tracks.proposed_eq_scan {o : Outcome α} (htracks : e₀.Tracks nl) (hidle : e₀.Idle)
    (hroom : e₀.geometry.proposed.size = e₀.nets.size) (hm : m.Fits nl)
    (happly : nl.apply m = .ok placed) (heval : e₀.evaluate placed m timing = .ok (e', o))
    (hn : n ∈ e'.affected) :
    ∃ g, e'.geometry.proposed[n.toNat]? = some g ∧
      e₀.geometry.scan placed e₀.interior n = .ok g := by
  obtain ⟨-, -, e₁, timingDelta, boxDelta, hvisits, hrecost, -⟩ := evaluate_eq_ok.1 heval
  have hcosted := costed_of_foldlM hrecost
  have hamid := htracks.amid hidle hroom hm happly hvisits
  have haffected : e'.affected = e₁.affected := by rw [hcosted.same]
  have hgeometry : e'.geometry = e₁.geometry := by rw [hcosted.same]
  rw [haffected] at hn
  obtain ⟨_, _, _, g, -, -, hg, hscan⟩ :=
    hamid.exists_scan (marks_of_visits hidle hvisits) htracks hm happly hn
  rw [hgeometry]
  exact ⟨g, hg, hscan⟩

end

end Engine

end WireCost
