import Mathlib.Order.Bounds.Defs
import WireCost.Proofs.Device
import WireCost.Proofs.Geometry.Table
import WireCost.Proofs.Netlist.Built
import WireCost.Proofs.Netlist.Sites

/-! # Scanning a net from scratch

What a scan has to find is declared here from the list of the sites of the pins, layer by layer and
without the tables of the program.

* **`Interior.nearest`**, **`Netlist.Places.sitesOf`** — the sites that are scanned.
* **`Geometry.Declared`** — the boxes and the counts that are declared for them;
  **`Geometry.measures_bag_iff`** — they are the exact ones.
* **`Geometry.Declared.perm`**, **`Geometry.Declared.sum_sinks`** — they do not depend on the order
  of the sinks, and each sink is counted once.
* **`EdgeBox.IsUnion`**, **`Geometry.Declared.isUnion`** — the box over all pins reaches as far as
  the boxes of the layers together.
* **`Geometry.scan_eq_overflow`** — it fails when there are more sinks on a layer than can be
  counted.
* **`Netlist.scan_finds_declared`** — a scan finds what is declared.
* **`Netlist.scans_overflow`** — nets with too many sinks, or with a pin too far off. -/

namespace WireCost

/-! ## The sites of a net -/

/-- The interior site nearest to a pin. -/
def Interior.nearest (i : Interior) (s : Site) : Site :=
  ⟨max 1 (min i.columns s.x), max 1 (min i.rows s.y), s.layer⟩

theorem Interior.clip_eq_nearest {i : Interior} {s : Site} (hopen : i.IsOpen)
    (h : i.HasLayer s.layer) : i.clip s = .ok (i.nearest s) :=
  clip_eq_ok.2 ⟨⟨h, hopen.columns, hopen.rows⟩, rfl⟩

/-- The pins of a net are at the sites `σ`, which are on layers of the interior. -/
def Netlist.Places (nl : Netlist) (i : Interior) (net : Net) (driver : PinId) (σ : PinId → Site) :
    Prop :=
  ∀ p ∈ driver :: net.sinks, nl.siteOf p = .ok (σ p) ∧ i.HasLayer (σ p).layer

/-- **The sites of a net** are the interior sites nearest to its pins. -/
theorem Netlist.Places.sitesOf {nl : Netlist} {i : Interior} {n : NetId} {net : Net}
    {driver : PinId} {σ : PinId → Site} (h : nl.Places i net driver σ) (hopen : i.IsOpen)
    (hnet : nl.nets[n.toNat]? = some net) (hdriver : net.driver = some driver) :
    nl.sitesOf i n = .ok (net.sitesAt driver fun p => i.nearest (σ p)) := by
  have hsite : ∀ p ∈ driver :: net.sinks, nl.siteIn i p = .ok (i.nearest (σ p)) := by
    intro p hp
    rw [siteIn, (h p hp).1, Checked.ok_bind, Interior.clip_eq_nearest hopen (h p hp).2]
  have hmap : ∀ p ∈ driver :: net.sinks, nl.siteMap i p = i.nearest (σ p) := fun p hp =>
    siteMap_of_siteIn (hsite p hp)
  refine (sitesOf_eq_ok hnet hdriver).2 ⟨fun p hp => by rw [hsite p hp, hmap p hp], ?_⟩
  rw [Net.sitesAt, hmap driver List.mem_cons_self,
    List.map_congr_left fun p hp => hmap p (List.mem_cons_of_mem driver hp)]

/-- On a layer of a device, the position in a table over layers is the layer. -/
theorem Site.OnLayers.slot_eq_iff {layers l : Nat} {s : Site} (h : s.OnLayers layers)
    (hl : layers ≤ Word.size64) : s.slot = l ↔ s.layer = l := by
  unfold OnLayers at h
  simp only [slot, Word.asNat64, Word.size64] at *
  omega

namespace NetSites

/-- The points of all pins. -/
def points (s : NetSites) : Multiset (Int × Int) :=
  ((s.driver :: s.sinks).map Site.point : List (Int × Int))

/-- The sinks on a layer. -/
def sinksOn (s : NetSites) (l : Nat) : List Site := s.sinks.filter fun t => t.layer = l

/-- The points of the driver and of the sinks on a layer. -/
def pointsOn (s : NetSites) (l : Nat) : Multiset (Int × Int) :=
  ((s.driver :: s.sinksOn l).map Site.point : List (Int × Int))

/-- There are more sinks on a layer than a signed word can count, or more pins in the one box than
an unsigned word can count. -/
def Overloads (form : BoxForm) (s : NetSites) : Prop :=
  (∃ l, Word.size31 ≤ (s.sinksOn l).length) ∨
    form = .cube ∧ Word.size32 ≤ s.sinks.length + 1

variable {s : NetSites} {layers : Nat} {form : BoxForm}

theorem points_bag_cube (s : NetSites) : s.bag.points .cube 0 = s.points := by
  simp [SiteBag.points, bag, points, Geometry.boxOf]

theorem points_bag_perLayer (hl : layers ≤ Word.size64) (hon : ∀ t ∈ s.sinks, t.OnLayers layers)
    (l : Nat) : s.bag.points .perLayer l = s.pointsOn l := by
  have hfilter : s.sinks.filter (fun t => t.slot = l) = s.sinksOn l :=
    List.filter_congr fun t ht => decide_eq_decide.2 ((hon t ht).slot_eq_iff hl)
  have hbox : s.bag.sinks.filter (fun t => Geometry.boxOf .perLayer t.layer = l) =
      (s.sinksOn l : Multiset Site) := by
    rw [← hfilter]
    exact Multiset.filter_coe _ _
  rw [SiteBag.points, hbox, Multiset.map_coe, Multiset.cons_coe]
  rfl

theorem sinksOn_bag (hl : layers ≤ Word.size64) (hon : ∀ t ∈ s.sinks, t.OnLayers layers) (l : Nat) :
    s.bag.sinksOn l = (s.sinksOn l).length := by
  rw [SiteBag.sinksOn, bag, Multiset.map_coe, Multiset.coe_count, List.count, List.countP_map,
    sinksOn, ← List.countP_eq_length_filter]
  refine List.countP_congr fun t ht => ?_
  rw [Function.comp_apply, beq_iff_eq, decide_eq_true_eq]
  exact (hon t ht).slot_eq_iff hl

/-- What cannot be counted overloads a word. -/
theorem overloads_of_not_countable (hl : layers ≤ Word.size64)
    (hon : ∀ t ∈ s.sinks, t.OnLayers layers) (h : ¬ s.bag.Countable form) : s.Overloads form := by
  by_contra hfew
  obtain ⟨hlayers, hall⟩ := not_or.1 hfew
  have hsinks : ∀ l, (s.sinksOn l).length < Word.size31 := fun l =>
    not_le.1 fun hmany => hlayers ⟨l, hmany⟩
  refine h ⟨fun l => by rw [sinksOn_bag hl hon]; exact hsinks l, fun l => ?_⟩
  cases form with
  | cube =>
    have hroom := not_le.1 fun hmany => hall ⟨rfl, hmany⟩
    exact (s.bag.card_points_le .cube l).trans_lt hroom
  | perLayer =>
    have hroom := hsinks l
    rw [points_bag_perLayer hl hon, pointsOn, Multiset.coe_card, List.length_map,
      List.length_cons]
    simp only [Word.size31, Word.size32] at *
    omega

end NetSites

/-! ## What is declared -/

namespace Geometry

/-- **The geometry that is declared for the sites of a net.** The one box is over all pins; the box
of a layer is over the driver and the sinks on that layer. On each layer, its sinks are counted. -/
structure Declared (form : BoxForm) (layers : Nat) (g : Geometry) (s : NetSites) : Prop where
  boxes : match form with
    | .cube => ∃ box, g.boxes = [box] ∧ box.Measures s.points
    | .perLayer => g.boxes.length = layers ∧
        ∀ (l : Nat) (box : EdgeBox), g.boxes[l]? = some box → box.Measures (s.pointsOn l)
  sinks : g.sinks = (List.range layers).map fun l => ((s.sinksOn l).length : Int)

variable {form : BoxForm} {layers : Nat} {g g' : Geometry} {s : NetSites}

/-- **The exact geometry is the declared one.** -/
theorem measures_bag_iff (hl : layers ≤ Word.size64) (hon : ∀ t ∈ s.sinks, t.OnLayers layers) :
    g.Measures form layers s.bag ↔ g.Declared form layers s := by
  have hcounts : counts layers s.bag.sinksOn =
      (List.range layers).map fun l => ((s.sinksOn l).length : Int) := by
    rw [counts]
    exact List.map_congr_left fun l _ => by rw [NetSites.sinksOn_bag hl hon]
  constructor
  · rintro ⟨-, ⟨hlength, hbox⟩, hsinks⟩
    refine ⟨?_, hsinks.trans hcounts⟩
    cases form with
    | cube =>
      obtain ⟨box, hboxes⟩ := List.length_eq_one_iff.1 hlength
      refine ⟨box, hboxes, ?_⟩
      rw [← NetSites.points_bag_cube]
      exact hbox 0 box (by rw [hboxes]; rfl)
    | perLayer =>
      refine ⟨hlength, fun l box hl' => ?_⟩
      rw [← NetSites.points_bag_perLayer hl hon]
      exact hbox l box hl'
  · rintro ⟨hboxes, hsinks⟩
    refine ⟨hon, ?_, hsinks.trans hcounts.symm⟩
    cases form with
    | cube =>
      obtain ⟨box, hboxes, hbox⟩ := hboxes
      refine ⟨by rw [hboxes]; rfl, fun l c hc => ?_⟩
      obtain ⟨rfl, rfl⟩ : l = 0 ∧ box = c := by
        rw [hboxes] at hc
        cases l with
        | zero => exact ⟨rfl, Option.some.inj hc⟩
        | succ l => cases hc
      rwa [NetSites.points_bag_cube]
    | perLayer =>
      refine ⟨hboxes.1, fun l c hc => ?_⟩
      rw [NetSites.points_bag_perLayer hl hon]
      exact hboxes.2 l c hc

namespace Declared

/-- The declared geometry of sites on the layers of a device is the only one. -/
theorem unique (hl : layers ≤ Word.size64) (hon : ∀ t ∈ s.sinks, t.OnLayers layers)
    (h : g.Declared form layers s) (h' : g'.Declared form layers s) : g = g' :=
  ((measures_bag_iff hl hon).2 h).unique ((measures_bag_iff hl hon).2 h')

/-- **The order of the sinks does not matter.** -/
theorem perm {driver : Site} {sinks sinks' : List Site} (hperm : sinks'.Perm sinks)
    (h : g.Declared form layers ⟨driver, sinks'⟩) : g.Declared form layers ⟨driver, sinks⟩ := by
  have hpoints : NetSites.points ⟨driver, sinks'⟩ = NetSites.points ⟨driver, sinks⟩ :=
    Multiset.coe_eq_coe.2 ((hperm.cons driver).map Site.point)
  have hpointsOn : ∀ l,
      NetSites.pointsOn ⟨driver, sinks'⟩ l = NetSites.pointsOn ⟨driver, sinks⟩ l :=
    fun l => Multiset.coe_eq_coe.2 (((hperm.filter _).cons driver).map Site.point)
  have hsinksOn : ∀ l, (NetSites.sinksOn ⟨driver, sinks'⟩ l).length =
      (NetSites.sinksOn ⟨driver, sinks⟩ l).length := fun l => (hperm.filter _).length_eq
  obtain ⟨hboxes, hsinks⟩ := h
  refine ⟨?_, by simpa only [hsinksOn] using hsinks⟩
  cases form with
  | cube => simpa only [hpoints] using hboxes
  | perLayer => simpa only [hpointsOn] using hboxes

/-- **Each sink is counted once.** -/
theorem sum_sinks (hl : layers ≤ Word.size64) (hon : ∀ t ∈ s.sinks, t.OnLayers layers)
    (h : g.Declared form layers s) : g.sinks.sum = s.sinks.length := by
  have hcounts : (List.range layers).map (fun l => (s.sinksOn l).length) =
      (List.range layers).map s.bag.sinksOn :=
    List.map_congr_left fun l _ => (NetSites.sinksOn_bag hl hon l).symm
  have hsum : ((List.range layers).map fun l => (s.sinksOn l).length).sum = s.sinks.length := by
    rw [hcounts]
    exact SiteBag.sum_sinksOn (b := s.bag) hl hon
  rw [h.sinks, ← hsum, Nat.cast_list_sum, List.map_map]
  rfl

/-- **A layer without sinks** has the driver's point for its box. -/
theorem point_of_no_sinks (h : g.Declared .perLayer layers s) {l : Nat} (hlt : l < layers)
    (hnone : ∀ t ∈ s.sinks, t.layer ≠ l) :
    g.boxes[l]? = some (.point s.driver.x s.driver.y) := by
  obtain ⟨hlength, hbox⟩ := h.boxes
  have hget := List.getElem?_eq_getElem (l := g.boxes) (i := l) (by rwa [hlength])
  have hsinks : s.sinksOn l = [] :=
    List.filter_eq_nil_iff.2 fun t ht => by simpa using hnone t ht
  have hexact := hbox l _ hget
  rw [NetSites.pointsOn, hsinks] at hexact
  rw [hget, hexact.unique (.point s.driver.x s.driver.y)]

end Declared

end Geometry

/-! ## The box over all pins -/

/-- **The extents of a box are those of some boxes together.** -/
structure EdgeBox.IsUnion (b : EdgeBox) (boxes : List EdgeBox) : Prop where
  left : IsLeast {v | ∃ c ∈ boxes, c.x.low.line = v} b.x.low.line
  right : IsGreatest {v | ∃ c ∈ boxes, c.x.high.line = v} b.x.high.line
  bottom : IsLeast {v | ∃ c ∈ boxes, c.y.low.line = v} b.y.low.line
  top : IsGreatest {v | ∃ c ∈ boxes, c.y.high.line = v} b.y.high.line

/-- An edge of some points is the outermost one of edges that bound parts of them, if there is a
part for every point. -/
theorem Edge.Bounds.outermost {r : Int → Int → Prop} [IsLinearOrder Int r] {e : Edge}
    {xs : Multiset Int} {boxes : List EdgeBox} {parts : Nat → Multiset Int} (h : e.Bounds r xs)
    (edge : EdgeBox → Edge)
    (hparts : ∀ (l : Nat) (c : EdgeBox), boxes[l]? = some c → (edge c).Bounds r (parts l))
    (hsub : ∀ l, ∀ x ∈ parts l, x ∈ xs) (hcover : ∀ x ∈ xs, ∃ l < boxes.length, x ∈ parts l) :
    (∃ c ∈ boxes, (edge c).line = e.line) ∧ ∀ c ∈ boxes, r e.line (edge c).line := by
  have hbefore : ∀ c ∈ boxes, r e.line (edge c).line := by
    intro c hc
    obtain ⟨l, hl⟩ := List.mem_iff_getElem?.1 hc
    exact h.first _ (hsub l _ (hparts l c hl).mem)
  obtain ⟨l, hlt, hmem⟩ := hcover e.line h.mem
  have hget := List.getElem?_eq_getElem hlt
  have hc := List.mem_of_getElem? hget
  exact ⟨⟨_, hc, antisymm ((hparts l _ hget).first _ hmem) (hbefore _ hc)⟩, hbefore⟩

/-- **The box of some points is the union of boxes of parts of them,** if there is a part for every
point. -/
theorem EdgeBox.Measures.isUnion {b : EdgeBox} {pts : Multiset (Int × Int)} {boxes : List EdgeBox}
    {parts : Nat → Multiset (Int × Int)} (h : b.Measures pts)
    (hparts : ∀ (l : Nat) (c : EdgeBox), boxes[l]? = some c → c.Measures (parts l))
    (hsub : ∀ l, ∀ p ∈ parts l, p ∈ pts) (hcover : ∀ p ∈ pts, ∃ l < boxes.length, p ∈ parts l) :
    b.IsUnion boxes := by
  -- the parts as seen along one axis
  have hsub' : ∀ (axis : Int × Int → Int) (l : Nat),
      ∀ v ∈ (parts l).map axis, v ∈ pts.map axis := by
    intro axis l v hv
    obtain ⟨p, hp, rfl⟩ := Multiset.mem_map.1 hv
    exact Multiset.mem_map_of_mem axis (hsub l p hp)
  have hcover' : ∀ (axis : Int × Int → Int), ∀ v ∈ pts.map axis,
      ∃ l < boxes.length, v ∈ (parts l).map axis := by
    intro axis v hv
    obtain ⟨p, hp, rfl⟩ := Multiset.mem_map.1 hv
    obtain ⟨l, hlt, hmem⟩ := hcover p hp
    exact ⟨l, hlt, Multiset.mem_map_of_mem axis hmem⟩
  obtain ⟨hleft, hleft'⟩ := h.x.low.outermost (fun c => c.x.low)
    (fun l c hc => (hparts l c hc).x.low) (hsub' _) (hcover' _)
  obtain ⟨hright, hright'⟩ := h.x.high.outermost (fun c => c.x.high)
    (fun l c hc => (hparts l c hc).x.high) (hsub' _) (hcover' _)
  obtain ⟨hbottom, hbottom'⟩ := h.y.low.outermost (fun c => c.y.low)
    (fun l c hc => (hparts l c hc).y.low) (hsub' _) (hcover' _)
  obtain ⟨htop, htop'⟩ := h.y.high.outermost (fun c => c.y.high)
    (fun l c hc => (hparts l c hc).y.high) (hsub' _) (hcover' _)
  refine ⟨⟨hleft, ?_⟩, ⟨hright, ?_⟩, ⟨hbottom, ?_⟩, ⟨htop, ?_⟩⟩
  · rintro _ ⟨c, hc, rfl⟩
    exact hleft' c hc
  · rintro _ ⟨c, hc, rfl⟩
    exact hright' c hc
  · rintro _ ⟨c, hc, rfl⟩
    exact hbottom' c hc
  · rintro _ ⟨c, hc, rfl⟩
    exact htop' c hc

/-- **The one box reaches as far as the boxes of all layers together.** -/
theorem Geometry.Declared.isUnion {layers : Nat} {g g' : Geometry} {s : NetSites}
    (h : g.Declared .cube layers s) (h' : g'.Declared .perLayer layers s)
    (hon : ∀ t ∈ s.sinks, t.OnLayers layers) (hpos : 0 < layers) :
    ∃ box, g.boxes = [box] ∧ box.IsUnion g'.boxes := by
  obtain ⟨box, hboxes, hbox⟩ := h.boxes
  obtain ⟨hlength, hlayer⟩ := h'.boxes
  refine ⟨box, hboxes, hbox.isUnion hlayer (fun l p hp => ?_) fun p hp => ?_⟩
  · obtain ⟨t, ht, rfl⟩ := List.mem_map.1 (Multiset.mem_coe.1 hp)
    refine Multiset.mem_coe.2 (List.mem_map_of_mem ?_)
    obtain rfl | ht := List.mem_cons.1 ht
    · exact List.mem_cons_self
    · exact List.mem_cons_of_mem _ (List.mem_of_mem_filter ht)
  · obtain ⟨t, ht, rfl⟩ := List.mem_map.1 (Multiset.mem_coe.1 hp)
    obtain rfl | ht := List.mem_cons.1 ht
    -- the driver belongs to every layer, a sink to its own
    · exact ⟨0, by rwa [hlength], Multiset.mem_coe.2 (List.mem_map_of_mem List.mem_cons_self)⟩
    · obtain ⟨hlow, hhigh⟩ := hon t ht
      refine ⟨t.layer.toNat, by omega, Multiset.mem_coe.2 (List.mem_map_of_mem ?_)⟩
      exact List.mem_cons_of_mem _ (List.mem_filter.2 ⟨ht, decide_eq_true (by omega)⟩)

/-! ## A scan -/

namespace Geometry

variable {layers : Nat} {s : NetSites}

/-- **A scan finds what is declared,** or a word runs over. -/
theorem scan_declared (form : BoxForm) (hl : layers ≤ Word.size64)
    (hon : ∀ t ∈ s.sinks, t.OnLayers layers) :
    (∃ g, scan form layers s = .ok g ∧ g.Declared form layers s ∧
      ∀ l, (s.sinksOn l).length < Word.size31) ∨
    scan form layers s = .error .overflow ∧ s.Overloads form := by
  obtain ⟨g, hscan, hfits, hg⟩ | ⟨hscan, hnot⟩ := scan_cases form hl hon
  · refine .inl ⟨g, hscan, (measures_bag_iff hl hon).1 hg, fun l => ?_⟩
    rw [← NetSites.sinksOn_bag hl hon]
    exact hfits l
  · exact .inr ⟨hscan, NetSites.overloads_of_not_countable hl hon hnot⟩

/-- **More sinks on a layer than can be counted** make a scan fail. -/
theorem scan_eq_overflow (form : BoxForm) (hl : layers ≤ Word.size64)
    (hon : ∀ t ∈ s.sinks, t.OnLayers layers) {l : Nat}
    (hmany : Word.size31 ≤ (s.sinksOn l).length) : scan form layers s = .error .overflow := by
  obtain ⟨g, -, -, hfew⟩ | ⟨hscan, -⟩ := scan_declared form hl hon
  · exact absurd (hfew l) (Nat.not_lt.2 hmany)
  · exact hscan

theorem declared_of_scan {form : BoxForm} {g : Geometry} (hl : layers ≤ Word.size64)
    (hon : ∀ t ∈ s.sinks, t.OnLayers layers) (h : scan form layers s = .ok g) :
    g.Declared form layers s := by
  obtain ⟨g', hscan, hg', -⟩ | ⟨hscan, -⟩ := scan_declared form hl hon
  · obtain rfl := Except.ok.inj (h.symm.trans hscan)
    exact hg'
  · cases h.symm.trans hscan

end Geometry

namespace Netlist

variable {nl : Netlist} {i : Interior} {n : NetId} {net : Net} {driver : PinId} {σ : PinId → Site}

/-- The sinks of a net that is placed are on layers of the device. -/
theorem Places.onLayers (h : nl.Places i net driver σ) :
    ∀ t ∈ (net.sitesAt driver fun p => i.nearest (σ p)).sinks, t.OnLayers i.layers := by
  intro t ht
  obtain ⟨p, hp, rfl⟩ := List.mem_map.1 ht
  exact (h p (List.mem_cons_of_mem driver hp)).2

/-- **A scan of a net finds what is declared for its pins,** clipped to the interior, in either form
and whatever the net's place in the table held before. The only way for it to fail is that a word
runs over, which takes 2³¹ sinks on one layer, or 2³² pins of the one box. The order of the sinks
does not matter, the counts of the layers add up to the number of sinks, a layer without sinks has
the driver's point for its box, and the one box reaches as far as those of all layers together. -/
theorem scan_finds_declared (hopen : i.IsOpen) (hnet : nl.nets[n.toNat]? = some net)
    (hdriver : net.driver = some driver) (hplaces : nl.Places i net driver σ) {s : NetSites}
    (hs : net.sitesAt driver (fun p => i.nearest (σ p)) = s) :
    nl.sitesOf i n = .ok s ∧
    (∀ form,
      (∃ g, Geometry.scan form i.layers s = .ok g ∧ g.Declared form i.layers s ∧
        (∀ l, (s.sinksOn l).length < Word.size31) ∧
        ∀ t : GeometryTable, t.form = form → t.layers = i.layers →
          (n.toNat < t.committed.size → t.load nl i n = .ok (t.withCommitted n g)) ∧
          (n.toNat < t.proposed.size → t.propose nl i n = .ok (t.withProposed n g))) ∨
      Geometry.scan form i.layers s = .error .overflow ∧ s.Overloads form) ∧
    (∀ form sinks' g g', sinks'.Perm s.sinks → Geometry.scan form i.layers s = .ok g →
      Geometry.scan form i.layers ⟨s.driver, sinks'⟩ = .ok g' → g = g') ∧
    (∀ form g, Geometry.scan form i.layers s = .ok g → g.sinks.sum = net.sinks.length) ∧
    (∀ g, Geometry.scan .perLayer i.layers s = .ok g → ∀ l < i.layers,
      (∀ t ∈ s.sinks, t.layer ≠ l) → g.boxes[l]? = some (.point s.driver.x s.driver.y)) ∧
    ∀ g g', Geometry.scan .cube i.layers s = .ok g → Geometry.scan .perLayer i.layers s = .ok g' →
      ∃ box, g.boxes = [box] ∧ box.IsUnion g'.boxes := by
  subst hs
  have hl := hopen.layers
  have hon := hplaces.onLayers
  have hsites := hplaces.sitesOf hopen hnet hdriver
  have hdeclared {form : BoxForm} {g : Geometry} (hg : Geometry.scan form i.layers _ = .ok g) :=
    Geometry.declared_of_scan hl hon hg
  refine ⟨hsites, fun form => ?_, fun form sinks' g g' hperm hg hg' => ?_, fun form g hg => ?_,
    fun g hg l hlt hnone => (hdeclared hg).point_of_no_sinks hlt hnone, fun g g' hg hg' => ?_⟩
  · refine (Geometry.scan_declared form hl hon).imp (fun ⟨g, hscan, hg, hfew⟩ => ?_) id
    refine ⟨g, hscan, hg, hfew, fun t hform hlayers => ?_⟩
    have hrun : t.scan nl i n = .ok g := by
      rw [GeometryTable.scan, hsites, Checked.ok_bind, hform, hlayers, hscan]
    exact ⟨fun hlt => GeometryTable.load_eq_ok.2 ⟨hlt, g, hrun, rfl⟩,
      fun hlt => GeometryTable.propose_eq_ok.2 ⟨hlt, g, hrun, rfl⟩⟩
  · have hon' : ∀ t ∈ sinks', t.OnLayers i.layers := fun t ht => hon t (hperm.mem_iff.1 ht)
    exact (hdeclared hg).unique hl hon ((Geometry.declared_of_scan hl hon' hg').perm hperm)
  · rw [(hdeclared hg).sum_sinks hl hon, Net.sitesAt, List.length_map]
  · have hlayer := (hplaces driver List.mem_cons_self).2
    have hpos : 0 < i.layers := by
      unfold Interior.HasLayer at hlayer
      omega
    exact (hdeclared hg).isUnion (hdeclared hg') hon hpos

/-- A net with one sink, on a device with two layers. -/
theorem scan_finds_declared_small : ∃ g,
    (Sample.netlist.sitesOf ⟨2, 2, 2⟩ ⟨0⟩ >>= Geometry.scan .perLayer 2) = .ok g ∧
      g.boxes[1]? = some (.point 1 1) ∧ g.sinks.sum = 1 := by
  have hnet : Sample.netlist.nets[(⟨0⟩ : NetId).toNat]? =
      some ⟨⟨0⟩, "n", some ⟨0⟩, [⟨1⟩], false⟩ := by
    decide +kernel
  have hplaces : Sample.netlist.Places ⟨2, 2, 2⟩ ⟨⟨0⟩, "n", some ⟨0⟩, [⟨1⟩], false⟩ ⟨0⟩
      fun p => if p = ⟨0⟩ then ⟨1, 1, 0⟩ else ⟨2, 2, 0⟩ := by
    intro p hp
    obtain rfl | hp := List.mem_cons.1 hp
    · exact ⟨Sample.eq_ok_result (by decide +kernel), by decide⟩
    · obtain rfl := List.mem_singleton.1 hp
      exact ⟨Sample.eq_ok_result (by decide +kernel), by decide⟩
  obtain ⟨hsites, hscan, -, hsum, hpoint, -⟩ := scan_finds_declared (n := ⟨0⟩)
    (i := ⟨2, 2, 2⟩) ⟨by decide, by decide, by decide⟩ hnet rfl hplaces rfl
  obtain ⟨g, hg, -⟩ | ⟨hfails, -⟩ := hscan .perLayer
  · exact ⟨g, by rw [hsites]; exact hg, hpoint g hg 1 (by decide) (by decide), hsum .perLayer g hg⟩
  · cases hfails

end Netlist

end WireCost

/-! ## Nets that cannot be scanned -/

namespace WireCost.Sample

/-- The first block drives the net and is its sink as many times as wanted. -/
def gathering : Nat → Checked Netlist
  | 0 => .ok driven.1
  | k + 1 => do .ok (← (← gathering k).connectSink ⟨0⟩ ⟨0⟩ .zero).1

/-- **What a gathering looks like:** all its pins belong to the first block. -/
structure IsGathering (k : Nat) (nl : Netlist) : Prop where
  built : nl.Built
  size : nl.pins.size = k + 1
  block : ∃ b, nl.blocks[0]? = some b ∧ b.location = ⟨1, 1, 0, 0⟩
  pins : ∀ (i : Nat) (pin : Pin), nl.pins[i]? = some pin → pin.block = ⟨0⟩ ∧ pin.offset = .zero
  net : ∃ net, nl.nets[0]? = some net ∧ net.driver = some ⟨0⟩ ∧ net.sinks.length = k

namespace IsGathering

variable {k : Nat} {nl : Netlist} {net : Net}

theorem driven : IsGathering 0 driven.1 where
  built := built_driven
  size := by decide +kernel
  block := ⟨⟨⟨0⟩, "a", ⟨1, 1, 0, 0⟩, [⟨0⟩]⟩, by decide +kernel, rfl⟩
  pins := by
    have hpins : Sample.driven.1.pins = #[⟨⟨0⟩, ⟨0⟩, some ⟨0⟩, .driver, .zero, none⟩] := by
      decide +kernel
    intro i pin hpin
    rw [hpins] at hpin
    obtain rfl := List.mem_singleton.1 (Array.mem_toList_iff.2 (Array.mem_of_getElem? hpin))
    exact ⟨rfl, rfl⟩
  net := ⟨⟨⟨0⟩, "n", some ⟨0⟩, [], false⟩, by decide +kernel, rfl, rfl⟩

/-- **One more sink** makes a larger gathering. -/
theorem exists_connectSink (h : IsGathering k nl) (hk : k < Word.size31) :
    ∃ nl' id, nl.connectSink ⟨0⟩ ⟨0⟩ .zero = .ok (nl', id) ∧ IsGathering (k + 1) nl' := by
  obtain ⟨net, hnet, hdriver, hlength⟩ := h.net
  obtain ⟨b, hb, hlocation⟩ := h.block
  have hroom : nl.pins.size + 1 < Word.size32 := by
    rw [h.size]
    simp only [Word.size31, Word.size32] at *
    omega
  have hcall : nl.connectSink ⟨0⟩ ⟨0⟩ .zero = .ok (_, _) :=
    Netlist.connectSink_eq_ok.2 ⟨net, hnet, ⟨b, hb⟩, rfl, rfl⟩
  refine ⟨_, _, hcall, h.built.connectSink hroom hcall, ?_, ?_, ?_, ?_⟩
  · simp [Netlist.withPin, h.size]
  · exact ⟨_, getElem?_modify_eq_some.2 ⟨b, hb, rfl⟩, hlocation⟩
  · intro i pin hpin
    simp only [Netlist.withPin, Array.getElem?_push] at hpin
    split at hpin
    · cases hpin
      exact ⟨rfl, rfl⟩
    · exact h.pins i pin hpin
  · refine ⟨_, getElem?_modify_eq_some.2 ⟨net, hnet, rfl⟩, hdriver, ?_⟩
    rw [if_pos (show (⟨0⟩ : NetId).toNat = 0 from rfl), List.length_append, hlength]
    rfl

/-- **All its pins are at the same site.** -/
theorem places (h : IsGathering k nl) (hnet : nl.nets[(⟨0⟩ : NetId).toNat]? = some net)
    (hdriver : net.driver = some ⟨0⟩) :
    nl.Places ⟨1, 1, 1⟩ net ⟨0⟩ fun _ => ⟨1, 1, 0⟩ := by
  obtain ⟨b, hb, hlocation⟩ := h.block
  intro p hp
  obtain ⟨pin, hpin, -⟩ := h.built.consistent.net_of_mem_pins hnet
    (by simpa [hdriver] using hp)
  obtain ⟨hblock, hoffset⟩ := h.pins p.toNat pin hpin
  have hentry : entry nl.blocks pin.block.toNat = .ok b := by
    rw [hblock]
    exact entry_of_some hb
  refine ⟨?_, show Interior.HasLayer ⟨1, 1, 1⟩ 0 by decide⟩
  rw [Netlist.siteOf, Netlist.pin, entry_of_some hpin, Checked.ok_bind, Netlist.block, hentry,
    Checked.ok_bind, hlocation, hoffset]
  rfl

end IsGathering

/-- **Gatherings can be built** with one sink more than a signed word can count. -/
theorem exists_gathering {k : Nat} (hk : k ≤ Word.size31) :
    ∃ nl, gathering k = .ok nl ∧ IsGathering k nl := by
  induction k with
  | zero => exact ⟨_, rfl, .driven⟩
  | succ k ih =>
    obtain ⟨nl, hnl, h⟩ := ih (Nat.le_of_succ_le hk)
    obtain ⟨nl', id, hcall, h'⟩ := h.exists_connectSink hk
    exact ⟨nl', by rw [gathering, hnl, Checked.ok_bind, hcall, Checked.ok_bind], h'⟩

/-- The first block drives the net from so far off that the column is no word. -/
def astray : Netlist × PinId :=
  result (unconnected.connectDriver ⟨0⟩ ⟨0⟩ ⟨2147483647, 0⟩) (by decide +kernel)

end WireCost.Sample

namespace WireCost.Netlist

/-- **A scan can run over:** with 2³¹ sinks on one layer it fails in either form. So it does where
the column of the driver is no word. -/
theorem scans_overflow :
    (∃ nl net, Sample.gathering Word.size31 = .ok nl ∧ nl.Built ∧ nl.nets[0]? = some net ∧
      net.driver = some ⟨0⟩ ∧ net.sinks.length = Word.size31 ∧
      nl.Places ⟨1, 1, 1⟩ net ⟨0⟩ (fun _ => ⟨1, 1, 0⟩) ∧
      ∀ form, (nl.sitesOf ⟨1, 1, 1⟩ ⟨0⟩ >>= Geometry.scan form 1) = .error .overflow) ∧
    (Sample.unconnected.connectDriver ⟨0⟩ ⟨0⟩ ⟨2147483647, 0⟩ = .ok Sample.astray ∧
      ∀ form, (Sample.astray.1.sitesOf ⟨6, 6, 1⟩ ⟨0⟩ >>= Geometry.scan form 1) =
        .error .overflow) := by
  constructor
  · obtain ⟨nl, hgathering, h⟩ := Sample.exists_gathering (Nat.le_refl Word.size31)
    obtain ⟨net, hnet, hdriver, hlength⟩ := h.net
    have hplaces := h.places hnet hdriver
    have hopen : Interior.IsOpen ⟨1, 1, 1⟩ := ⟨by decide, by decide, by decide⟩
    refine ⟨nl, net, hgathering, h.built, hnet, hdriver, hlength, hplaces, fun form => ?_⟩
    rw [hplaces.sitesOf (n := ⟨0⟩) hopen hnet hdriver, Checked.ok_bind]
    refine Geometry.scan_eq_overflow form hopen.layers hplaces.onLayers (l := 0) ?_
    -- every sink is on this layer
    rw [NetSites.sinksOn, List.filter_eq_self.2, Net.sitesAt, List.length_map, hlength]
    intro t ht
    obtain ⟨p, -, rfl⟩ := List.mem_map.1 ht
    rfl
  · refine ⟨Sample.eq_ok_result (by decide +kernel), fun form => ?_⟩
    have hsites : Sample.astray.1.sitesOf ⟨6, 6, 1⟩ ⟨0⟩ = .error .overflow := by decide +kernel
    rw [hsites, Checked.error_bind]

end WireCost.Netlist
