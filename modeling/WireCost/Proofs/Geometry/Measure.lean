import Mathlib.Algebra.BigOperators.Ring.Finset
import WireCost.Geometry.Basic
import WireCost.Proofs.EdgeBox.Exact

/-! # Exact geometries

The geometry of a net depends on the sites of its pins only as a bag: the driver, and the sinks in
no order. A geometry is exact for such a bag when its boxes are exact and its counts are those of
the sinks on each layer.

* **`SiteBag`** — the sites of the pins of a net, the sinks in no order; **`SiteBag.Countable`** if
  words can count them.
* **`Geometry.Measures`** — exact geometries; there is only one for every bag.
* **`Geometry.Measures.addSink_eq`** — one more sink, or a word that runs over.
* **`Geometry.scan_cases`**, **`Geometry.scan_eq_ok`** — a scan yields exactly the exact geometry,
  as long as the pins can be counted.
* **`Geometry.Measures.sinkTotal`** — the counts add up to the number of sinks. -/

namespace WireCost

/-! ## Bags of sites -/

/-- A site in the plane. -/
def Site.point (s : Site) : Int × Int := (s.x, s.y)

/-- The layer of a site as a position in a table over layers. -/
def Site.slot (s : Site) : Nat := Word.asNat64 s.layer

/-- Whether a site is on one of the layers of a device. -/
def Site.OnLayers (layers : Nat) (s : Site) : Prop := 0 ≤ s.layer ∧ s.layer < layers

theorem Site.OnLayers.slot_lt {layers : Nat} {s : Site} (h : s.OnLayers layers)
    (hl : layers ≤ Word.size64) : s.slot < layers := by
  unfold OnLayers at h
  simp only [slot, Word.asNat64, Word.size64] at *
  omega

/-- Layers of a device keep apart as positions. -/
theorem Site.OnLayers.slot_inj {layers : Nat} {s t : Site} (hs : s.OnLayers layers)
    (ht : t.OnLayers layers) (hl : layers ≤ Word.size64) : s.slot = t.slot ↔ s.layer = t.layer := by
  unfold OnLayers at hs ht
  simp only [slot, Word.asNat64, Word.size64] at *
  omega

/-- The sites of the pins of a net, the sinks in no order. -/
structure SiteBag where
  driver : Site
  sinks : Multiset Site

/-- The sites of a net without their order. -/
def NetSites.bag (s : NetSites) : SiteBag := ⟨s.driver, s.sinks⟩

namespace SiteBag

/-- The points that box `i` is over: the driver, and the sinks that belong to the box. -/
def points (form : BoxForm) (b : SiteBag) (i : Nat) : Multiset (Int × Int) :=
  b.driver.point ::ₘ (b.sinks.filter fun s => Geometry.boxOf form s.layer = i).map Site.point

/-- The number of sinks on a layer. -/
def sinksOn (b : SiteBag) (l : Nat) : Nat := (b.sinks.map Site.slot).count l

/-- Whether the sinks of each layer can be counted by a signed word. -/
def Fits (b : SiteBag) : Prop := ∀ l, b.sinksOn l < Word.size31

/-- One more sink. -/
def addSink (b : SiteBag) (s : Site) : SiteBag := { b with sinks := s ::ₘ b.sinks }

theorem sinksOn_addSink (b : SiteBag) (s : Site) :
    (b.addSink s).sinksOn = Function.update b.sinksOn s.slot (b.sinksOn s.slot + 1) := by
  funext l
  by_cases h : l = s.slot
  · subst h
    simp [sinksOn, addSink]
  · simp [sinksOn, addSink, h]

theorem fits_addSink {b : SiteBag} {s : Site} :
    (b.addSink s).Fits ↔ b.Fits ∧ b.sinksOn s.slot + 1 < Word.size31 := by
  simp only [Fits, sinksOn_addSink]
  constructor
  · intro h
    have hs := h s.slot
    rw [Function.update_self] at hs
    refine ⟨fun l => ?_, hs⟩
    by_cases hl : l = s.slot
    · subst hl
      omega
    · simpa only [Function.update_of_ne hl] using h l
  · rintro ⟨h, hs⟩ l
    by_cases hl : l = s.slot
    · subst hl
      rwa [Function.update_self]
    · simpa only [Function.update_of_ne hl] using h l

theorem foldl_addSink (b : SiteBag) (sinks : List Site) :
    sinks.foldl addSink b = ⟨b.driver, sinks + b.sinks⟩ := by
  induction sinks generalizing b with
  | nil => simp
  | cons s sinks ih =>
    rw [List.foldl_cons, ih, addSink, ← Multiset.cons_coe, Multiset.cons_add, Multiset.add_cons]

theorem sinksOn_le_card (b : SiteBag) (l : Nat) : b.sinksOn l ≤ b.sinks.card := by
  unfold sinksOn
  exact (Multiset.count_le_card _ _).trans_eq (Multiset.card_map _ _)

/-- Few sinks can always be counted. -/
theorem fits_of_card_lt {b : SiteBag} (h : b.sinks.card < Word.size31) : b.Fits := fun l =>
  (b.sinksOn_le_card l).trans_lt h

theorem card_points_le (form : BoxForm) (b : SiteBag) (i : Nat) :
    (b.points form i).card ≤ b.sinks.card + 1 := by
  rw [points, Multiset.card_cons, Multiset.card_map]
  have := Multiset.card_le_card (Multiset.filter_le
    (fun s => Geometry.boxOf form s.layer = i) b.sinks)
  omega

theorem card_points_le_addSink (form : BoxForm) (b : SiteBag) (s : Site) (i : Nat) :
    (b.points form i).card ≤ ((b.addSink s).points form i).card :=
  Multiset.card_le_card (Multiset.cons_le_cons _ (Multiset.map_le_map
    (Multiset.filter_le_filter _ (Multiset.le_cons_self b.sinks s))))

/-- The sinks of each layer and the pins of each box can be counted by their words. -/
structure Countable (form : BoxForm) (b : SiteBag) : Prop where
  sinks : b.Fits
  pins : ∀ i, (b.points form i).card < Word.size32

namespace Countable

variable {form : BoxForm} {b : SiteBag}

/-- Where all pins together can be counted, the sinks of each layer are what matters. -/
theorem of_card_lt (hfits : b.Fits) (room : b.sinks.card + 1 < Word.size32) : b.Countable form :=
  ⟨hfits, fun i => (b.card_points_le form i).trans_lt room⟩

/-- Fewer sinks can be counted as well. -/
theorem of_foldl {sinks : List Site} (h : (sinks.foldl addSink b).Countable form) :
    b.Countable form := by
  induction sinks generalizing b with
  | nil => exact h
  | cons s sinks ih =>
    have hnext := ih (b := b.addSink s) h
    exact ⟨(fits_addSink.1 hnext.sinks).1,
      fun i => (b.card_points_le_addSink form s i).trans_lt (hnext.pins i)⟩

end Countable

theorem points_addSink (form : BoxForm) (b : SiteBag) (s : Site) :
    (b.addSink s).points form (Geometry.boxOf form s.layer) =
      s.point ::ₘ b.points form (Geometry.boxOf form s.layer) := by
  have hin : Geometry.boxOf form s.layer = Geometry.boxOf form s.layer := rfl
  simp only [points, addSink]
  rw [Multiset.filter_cons_of_pos b.sinks hin, Multiset.map_cons, Multiset.cons_swap]

/-- **Each sink is counted once,** on its layer. -/
theorem sum_sinksOn {b : SiteBag} {layers : Nat} (hl : layers ≤ Word.size64)
    (hon : ∀ s ∈ b.sinks, s.OnLayers layers) :
    ((List.range layers).map b.sinksOn).sum = b.sinks.card := by
  have hcount := Multiset.sum_count_eq_card (s := Finset.range layers)
    (m := b.sinks.map Site.slot) (by
      intro l hmem
      obtain ⟨s, hs, rfl⟩ := Multiset.mem_map.1 hmem
      exact Finset.mem_range.2 ((hon s hs).slot_lt hl))
  rw [Multiset.card_map] at hcount
  exact hcount

theorem points_addSink_of_ne {form : BoxForm} (b : SiteBag) {s : Site} {i : Nat}
    (h : Geometry.boxOf form s.layer ≠ i) : (b.addSink s).points form i = b.points form i := by
  simp only [points, addSink]
  rw [Multiset.filter_cons_of_neg b.sinks h]

end SiteBag

namespace Geometry

/-! ## Counts of sinks -/

/-- Numbers for all layers, as sink counts. -/
def counts (layers : Nat) (c : Nat → Nat) : List Int := (List.range layers).map fun l => (c l : Int)

theorem getElem?_counts {layers l : Nat} {c : Nat → Nat} (h : l < layers) :
    (counts layers c)[l]? = some (c l : Int) := by
  simp [counts, h]

theorem set_counts (layers l n : Nat) (c : Nat → Nat) :
    (counts layers c).set l (n : Int) = counts layers (Function.update c l n) := by
  apply List.ext_getElem?
  intro i
  by_cases hl : l = i
  · subst hl
    by_cases hlt : l < layers
    · simp [counts, hlt]
    · simp [counts, hlt]
  · rw [List.getElem?_set_ne hl]
    simp only [counts, List.getElem?_map]
    by_cases hi : i < layers
    · simp [hi, Function.update_of_ne (Ne.symm hl)]
    · simp [hi]

/-- Counting one more sink succeeds as long as the count fits its word. -/
theorem countSink_eq_ok {layers : Nat} {c : Nat → Nat} {s : Site} (h : s.slot < layers)
    {ns : List Int} :
    countSink (counts layers c) s.layer = .ok ns ↔
      c s.slot + 1 < Word.size31 ∧
        counts layers (Function.update c s.slot (c s.slot + 1)) = ns := by
  rw [countSink, change_eq_ok, show Word.asNat64 s.layer = s.slot from rfl, getElem?_counts h]
  simp only [Option.some.injEq, Word.int32_eq_ok, Word.IsInt32, Word.size31]
  constructor
  · rintro ⟨x, y, rfl, ⟨hfit, rfl⟩, rfl⟩
    exact ⟨by omega, by rw [← set_counts]; rfl⟩
  · rintro ⟨hfit, rfl⟩
    exact ⟨_, _, rfl, ⟨by omega, rfl⟩, by rw [← set_counts]; rfl⟩

/-- It fails when the layer is full. -/
theorem countSink_of_full {layers : Nat} {c : Nat → Nat} {s : Site} (h : s.slot < layers)
    (hfull : ¬ c s.slot + 1 < Word.size31) :
    countSink (counts layers c) s.layer = .error .overflow := by
  have hword : ¬ Word.IsInt32 ((c s.slot : Int) + 1) := by
    simp only [Word.IsInt32, Word.size31] at hfull ⊢
    omega
  have hentry : entry (counts layers c) (Word.asNat64 s.layer) = .ok (c s.slot : Int) :=
    entry_of_some (getElem?_counts h)
  rw [countSink, change, hentry, Checked.ok_bind, Word.int32, if_neg hword, Checked.error_bind]

/-- Counting one sink less succeeds where there is one. -/
theorem uncountSink_eq {layers : Nat} {c : Nat → Nat} {s : Site} (h : s.slot < layers)
    (hpos : 0 < c s.slot) (hfit : c s.slot < Word.size31) :
    uncountSink (counts layers c) s.layer =
      .ok (counts layers (Function.update c s.slot (c s.slot - 1))) := by
  rw [uncountSink, change_eq_ok]
  have hcast : ((c s.slot - 1 : Nat) : Int) = c s.slot - 1 := by omega
  refine ⟨c s.slot, (c s.slot - 1 : Nat), getElem?_counts h, ?_, set_counts _ _ _ _⟩
  rw [hcast]
  apply Word.int32_of_isInt32
  unfold Word.IsInt32
  unfold Word.size31 at hfit
  omega

/-! ## Exact geometries -/

/-- The boxes are exact for the sites in `b`. -/
structure BoxesMeasure (form : BoxForm) (layers : Nat) (boxes : List EdgeBox) (b : SiteBag) :
    Prop where
  length : boxes.length = form.boxCount layers
  box : ∀ (i : Nat) (box : EdgeBox), boxes[i]? = some box → box.Measures (b.points form i)

/-- The geometry is exact for the sites in `b`. -/
structure Measures (form : BoxForm) (layers : Nat) (g : Geometry) (b : SiteBag) : Prop where
  onLayers : ∀ s ∈ b.sinks, s.OnLayers layers
  boxes : BoxesMeasure form layers g.boxes b
  sinkCounts : g.sinks = counts layers b.sinksOn

variable {form : BoxForm} {layers : Nat} {g g' : Geometry} {boxes boxes' : List EdgeBox}
  {b b' : SiteBag} {s : Site}

/-- The box of a site is one of the boxes of its form. -/
theorem boxOf_lt (hl : layers ≤ Word.size64) (h : s.OnLayers layers) :
    boxOf form s.layer < form.boxCount layers := by
  cases form with
  | cube => exact Nat.zero_lt_one
  | perLayer => exact h.slot_lt hl

namespace BoxesMeasure

theorem unique (h : BoxesMeasure form layers boxes b) (h' : BoxesMeasure form layers boxes' b) :
    boxes = boxes' := by
  apply List.ext_getElem
  · rw [h.length, h'.length]
  · intro i hi hi'
    exact (h.box i _ (List.getElem?_eq_getElem hi)).unique
      (h'.box i _ (List.getElem?_eq_getElem hi'))

/-- The box of a site is there. -/
theorem exists_box (h : BoxesMeasure form layers boxes b) (hl : layers ≤ Word.size64)
    (hs : s.OnLayers layers) : ∃ box, boxes[boxOf form s.layer]? = some box := by
  have hlt : boxOf form s.layer < boxes.length := by
    rw [h.length]
    exact boxOf_lt hl hs
  exact ⟨_, List.getElem?_eq_getElem hlt⟩

/-- Where the sites change for one box only, only that box has to change. -/
theorem set (h : BoxesMeasure form layers boxes b) {i : Nat} {box : EdgeBox}
    (hbox : box.Measures (b'.points form i))
    (hother : ∀ j, i ≠ j → b'.points form j = b.points form j) :
    BoxesMeasure form layers (boxes.set i box) b' where
  length := by rw [List.length_set, h.length]
  box := by
    intro j c hc
    rw [List.getElem?_set] at hc
    by_cases hi : i = j
    · subst hi
      obtain rfl : box = c := by
        rw [if_pos rfl] at hc
        split at hc <;> simp_all
      exact hbox
    · rw [if_neg hi] at hc
      rw [hother j hi]
      exact h.box j c hc

end BoxesMeasure

namespace Measures

/-- **There is only one exact geometry** for given sites. -/
theorem unique (h : g.Measures form layers b) (h' : g'.Measures form layers b) : g = g' := by
  have hboxes := h.boxes.unique h'.boxes
  have hsinks : g.sinks = g'.sinks := by rw [h.sinkCounts, h'.sinkCounts]
  cases g
  cases g'
  simp_all

/-- **A driver without sinks** is measured by its point. -/
theorem ofDriver (form : BoxForm) (layers : Nat) (driver : Site) :
    (Geometry.ofDriver form layers driver).Measures form layers ⟨driver, 0⟩ where
  onLayers := by simp
  boxes := by
    refine ⟨List.length_replicate, fun i box hbox => ?_⟩
    obtain rfl : box = .point driver.x driver.y := by
      simp only [Geometry.ofDriver, List.getElem?_replicate] at hbox
      split at hbox <;> simp_all
    exact .point driver.x driver.y
  sinkCounts := by
    apply List.ext_getElem <;> simp [Geometry.ofDriver, counts, SiteBag.sinksOn]

/-- The boxes of sites that can be counted fit. -/
theorem fits (h : g.Measures form layers b) (hb : b.Countable form) :
    ∀ box ∈ g.boxes, box.Fits := by
  intro box hbox
  obtain ⟨i, hi⟩ := List.mem_iff_getElem?.1 hbox
  exact (h.boxes.box i box hi).fits (hb.pins i)

/-- **A sink joins an exact geometry.** This fails only if the sinks of the layer or the pins on an
edge of a box cannot be counted any more. -/
theorem addSink_eq (h : g.Measures form layers b) (hl : layers ≤ Word.size64)
    (hs : s.OnLayers layers) (hfits : ∀ box ∈ g.boxes, box.Fits) :
    ∃ g', g'.Measures form layers (b.addSink s) ∧ Geometry.addSink form g s =
      if b.sinksOn s.slot + 1 < Word.size31 ∧ ∀ box ∈ g'.boxes, box.Fits then .ok g'
      else .error .overflow := by
  obtain ⟨box, hbox⟩ := h.boxes.exists_box hl hs
  have hmem := List.mem_of_getElem? hbox
  obtain ⟨box', hbox', hjoin⟩ := (h.boxes.box _ box hbox).include_eq (hfits box hmem) s.point
  refine ⟨⟨g.boxes.set (boxOf form s.layer) box', counts layers (b.addSink s).sinksOn⟩,
    ⟨?_, h.boxes.set ?_ fun j => b.points_addSink_of_ne, rfl⟩, ?_⟩
  · intro t ht
    obtain rfl | ht := Multiset.mem_cons.1 ht
    · exact hs
    · exact h.onLayers t ht
  · rw [SiteBag.points_addSink]
    exact hbox'
  -- only the box that the sink joins can stop fitting
  have hall : (∀ c ∈ g.boxes.set (boxOf form s.layer) box', c.Fits) ↔ box'.Fits := by
    obtain ⟨hlt, -⟩ := List.getElem?_eq_some_iff.1 hbox
    refine ⟨fun hc => hc box' (List.mem_set hlt box'), fun hnew c hc => ?_⟩
    obtain hc | rfl := List.mem_or_eq_of_mem_set hc
    · exact hfits c hc
    · exact hnew
  have hjoin' : box.include s.x s.y = if box'.Fits then .ok box' else .error .overflow := hjoin
  simp only [hall]
  rw [Geometry.addSink, change, entry_of_some hbox, Checked.ok_bind, hjoin']
  by_cases hnew : box'.Fits
  · rw [if_pos hnew, Checked.ok_bind, Checked.ok_bind]
    by_cases hcount : b.sinksOn s.slot + 1 < Word.size31
    · rw [if_pos ⟨hcount, hnew⟩, h.sinkCounts, SiteBag.sinksOn_addSink,
        (countSink_eq_ok (hs.slot_lt hl)).2 ⟨hcount, rfl⟩, Checked.ok_bind]
    · rw [if_neg fun hall => hcount hall.1, h.sinkCounts, countSink_of_full (hs.slot_lt hl) hcount,
        Checked.error_bind]
  · rw [if_neg hnew, if_neg fun hall => hnew hall.2, Checked.error_bind, Checked.error_bind]

/-- **Sinks join an exact geometry** one after the other. Either the result is exact, or the sinks
or the pins cannot be counted. -/
theorem addSinks {sinks : List Site} (h : g.Measures form layers b) (hl : layers ≤ Word.size64)
    (hon : ∀ s ∈ sinks, s.OnLayers layers) (hsinks : b.Fits) (hfits : ∀ box ∈ g.boxes, box.Fits) :
    (∃ g', sinks.foldlM (Geometry.addSink form) g = .ok g' ∧
      (sinks.foldl SiteBag.addSink b).Fits ∧
      g'.Measures form layers (sinks.foldl SiteBag.addSink b)) ∨
    sinks.foldlM (Geometry.addSink form) g = .error .overflow ∧
      ¬ (sinks.foldl SiteBag.addSink b).Countable form := by
  -- induction on the sinks: as long as all steps succeed, the geometry so far is exact and fits
  induction sinks generalizing g b with
  | nil => exact .inl ⟨g, rfl, hsinks, h⟩
  | cons s sinks ih =>
    obtain ⟨g₁, hg₁, hstep⟩ := h.addSink_eq hl (hon s List.mem_cons_self) hfits
    rw [List.foldlM_cons, List.foldl_cons, hstep]
    by_cases hnext : b.sinksOn s.slot + 1 < Word.size31 ∧ ∀ box ∈ g₁.boxes, box.Fits
    · rw [if_pos hnext, Checked.ok_bind]
      exact ih hg₁ (fun t ht => hon t (List.mem_cons_of_mem s ht))
        (SiteBag.fits_addSink.2 ⟨hsinks, hnext.1⟩) hnext.2
    · rw [if_neg hnext, Checked.error_bind]
      refine .inr ⟨rfl, fun hall => hnext ?_⟩
      have hcountable := hall.of_foldl
      exact ⟨(SiteBag.fits_addSink.1 hcountable.sinks).2, hg₁.fits hcountable⟩

/-- **The counts add up to the number of sinks.** -/
theorem sinkTotal (h : g.Measures form layers b) (hl : layers ≤ Word.size64)
    (room : b.sinks.card < Word.size64) : g.sinkTotal = .ok b.sinks.card := by
  -- a loop over counts that fit a word adds them up
  have hloop : ∀ (ns : List Nat) (t : Nat), t + ns.sum < Word.size64 →
      (ns.map fun n : Nat => (n : Int)).foldlM
        (fun total n => Word.nat64 (total + Word.asNat64 n)) t = .ok (t + ns.sum) := by
    intro ns
    induction ns with
    | nil => exact fun t _ => rfl
    | cons n ns ih =>
      intro t ht
      rw [List.sum_cons] at ht ⊢
      rw [List.map_cons, List.foldlM_cons, Word.asNat64_ofNat (by omega), Word.nat64,
        if_pos (by omega), Checked.ok_bind, ih (t + n) (by omega), Nat.add_assoc]
  have hsum := SiteBag.sum_sinksOn hl h.onLayers
  have hcounts : counts layers b.sinksOn =
      ((List.range layers).map b.sinksOn).map fun n : Nat => (n : Int) := by
    rw [counts, List.map_map]
    rfl
  rw [Geometry.sinkTotal, h.sinkCounts, hcounts, hloop _ 0 (by omega), hsum, Nat.zero_add]

end Measures

/-- **A scan yields the exact geometry,** or the sinks or the pins cannot be counted. -/
theorem scan_cases (form : BoxForm) {sites : NetSites} (hl : layers ≤ Word.size64)
    (hon : ∀ s ∈ sites.sinks, s.OnLayers layers) :
    (∃ g, scan form layers sites = .ok g ∧ sites.bag.Fits ∧ g.Measures form layers sites.bag) ∨
    scan form layers sites = .error .overflow ∧ ¬ sites.bag.Countable form := by
  have hbag : sites.sinks.foldl SiteBag.addSink ⟨sites.driver, 0⟩ = sites.bag := by
    rw [SiteBag.foldl_addSink, add_zero, NetSites.bag]
  have hempty : SiteBag.Fits ⟨sites.driver, 0⟩ :=
    SiteBag.fits_of_card_lt (by decide : (0 : Nat) < _)
  have hstart := Measures.ofDriver form layers sites.driver
  rw [scan, ← hbag]
  exact hstart.addSinks hl hon hempty (hstart.fits (.of_card_lt hempty (by decide : (1 : Nat) < _)))

/-- A scan succeeds on sites that can be counted. -/
theorem exists_scan {sites : NetSites} (hl : layers ≤ Word.size64)
    (hon : ∀ s ∈ sites.sinks, s.OnLayers layers) (hcountable : sites.bag.Countable form) :
    ∃ g, scan form layers sites = .ok g ∧ g.Measures form layers sites.bag := by
  obtain ⟨g, hscan, -, hg⟩ | ⟨-, hnot⟩ := scan_cases form hl hon
  · exact ⟨g, hscan, hg⟩
  · exact absurd hcountable hnot

/-- **Where all pins together can be counted,** a scan yields exactly the exact geometry, as long as
the sinks of each layer can be counted. -/
theorem scan_eq_ok {sites : NetSites} (hl : layers ≤ Word.size64)
    (hon : ∀ s ∈ sites.sinks, s.OnLayers layers) (room : sites.sinks.length + 1 < Word.size32) :
    scan form layers sites = .ok g ↔ sites.bag.Fits ∧ g.Measures form layers sites.bag := by
  constructor
  · intro hg
    obtain ⟨g', hscan, hfits, hg'⟩ | ⟨hscan, -⟩ := scan_cases form hl hon
    · obtain rfl := Except.ok.inj (hg.symm.trans hscan)
      exact ⟨hfits, hg'⟩
    · cases hg.symm.trans hscan
  · rintro ⟨hfits, hg⟩
    have hcountable : sites.bag.Countable form := .of_card_lt hfits room
    obtain ⟨g', hscan, hg'⟩ := exists_scan hl hon hcountable
    rw [hscan, hg.unique hg']

end Geometry

end WireCost
