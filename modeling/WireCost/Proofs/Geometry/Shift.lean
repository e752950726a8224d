import WireCost.Proofs.Geometry.InPlace
import WireCost.Proofs.Geometry.Measure

/-! # Moving one pin of an exact geometry

When one pin of a net moves, its geometry is changed in place and stays exact, or the change is
refused because a pin abandons an edge that it alone occupies.

* **`SiteBag.shift`** — the sites of a net after one pin has moved.
* **`Geometry.Loses`** — the moving pin takes an edge of a box away, which only a scan can replace.
* **`Geometry.Measures.shift?`** — the geometry after the move is exact, and it is refused exactly
  when the move loses an edge. -/

namespace WireCost

/-! ## Bags and moving pins -/

namespace SiteBag

/-- The sites of a net after one pin has moved. -/
def shift (b : SiteBag) (p : PinShift) : SiteBag :=
  if p.drives then { b with driver := p.new } else { b with sinks := p.new ::ₘ b.sinks.erase p.old }

/-- Whether a pin of the net is where the moving pin starts. -/
def Holds (b : SiteBag) (p : PinShift) : Prop :=
  if p.drives then p.old = b.driver else p.old ∈ b.sinks

/-- A moving sink leaves the other pins alone. -/
theorem exists_rest {b : SiteBag} {p : PinShift} (hp : p.drives = false) (h : b.Holds p) :
    ∃ rest : SiteBag, b = rest.addSink p.old ∧ b.shift p = rest.addSink p.new := by
  rw [Holds, hp] at h
  refine ⟨⟨b.driver, b.sinks.erase p.old⟩, ?_, by rw [shift, hp]; rfl⟩
  rw [addSink, Multiset.cons_erase h]

/-- A moving driver leaves the sinks alone. -/
theorem points_shift_driver (form : BoxForm) (b : SiteBag) {p : PinShift} (hp : p.drives = true)
    (i : Nat) : (b.shift p).points form i = p.new.point ::ₘ
      (b.sinks.filter fun s => Geometry.boxOf form s.layer = i).map Site.point := by
  rw [shift, hp]
  rfl

end SiteBag

/-- An exact box with a pin that moves. -/
theorem EdgeBox.Measures.shift_cons {box : EdgeBox} {pts : Multiset (Int × Int)}
    {old : Int × Int} (h : box.Measures (old ::ₘ pts)) (new : Int × Int)
    (room : pts.card + 1 < Word.size32) :
    ∃ o, box.shift? old new = .ok o ∧ (o = none ↔ box.IsAbandoned old new) ∧
      ∀ box' ∈ o, box'.Measures (new ::ₘ pts) := by
  have hshift := h.shift? new (Multiset.mem_cons_self old pts)
    (by rwa [Multiset.card_cons])
  rwa [Multiset.erase_cons_head] at hshift

namespace Geometry

variable {form : BoxForm} {layers : Nat} {g : Geometry} {b rest : SiteBag} {p : PinShift}
  {boxes : List EdgeBox}

/-- **The moving pin takes an edge away:** the driver abandons an edge of a box that holds sinks, or
a sink abandons an edge of its box, or is alone on an edge of the box that it leaves for another. -/
def Loses (form : BoxForm) (g : Geometry) (b : SiteBag) (p : PinShift) : Prop :=
  if p.drives then
    ∃ (i : Nat) (box : EdgeBox), g.boxes[i]? = some box ∧
      (∃ s ∈ b.sinks, boxOf form s.layer = i) ∧ box.IsAbandoned p.old.point p.new.point
  else
    ∃ box : EdgeBox, g.boxes[boxOf form p.old.layer]? = some box ∧
      if boxOf form p.old.layer = boxOf form p.new.layer then
        box.IsAbandoned p.old.point p.new.point
      else box.IsAlone p.old.point

/-! ## Boxes of a moving sink -/

/-- A sink moves within its box. -/
theorem BoxesMeasure.shiftBox? (h : BoxesMeasure form layers boxes (rest.addSink p.old))
    (hl : layers ≤ Word.size64) (hold : p.old.OnLayers layers)
    (hsame : boxOf form p.old.layer = boxOf form p.new.layer)
    (room : rest.sinks.card + 2 < Word.size32) :
    ∃ o, Geometry.shiftBox? boxes (boxOf form p.old.layer) p = .ok o ∧
      (o = none ↔ ∃ box : EdgeBox, boxes[boxOf form p.old.layer]? = some box ∧
        box.IsAbandoned p.old.point p.new.point) ∧
      ∀ boxes' ∈ o, BoxesMeasure form layers boxes' (rest.addSink p.new) := by
  obtain ⟨box, hbox⟩ := h.exists_box hl hold
  have hexact := h.box _ box hbox
  rw [SiteBag.points_addSink] at hexact
  have hcard := rest.card_points_le form (boxOf form p.old.layer)
  obtain ⟨o, hshift, hnone, hsome⟩ := hexact.shift_cons p.new.point (by omega)
  have hrun : Geometry.shiftBox? boxes (boxOf form p.old.layer) p =
      .ok (o.map fun box' => boxes.set (boxOf form p.old.layer) box') := by
    rw [Geometry.shiftBox?, entry_of_some hbox, Checked.ok_bind]
    simp only [Site.point] at hshift
    rw [hshift, Checked.ok_bind]
    cases o <;> rfl
  refine ⟨_, hrun, ?_, ?_⟩
  · simp [hnone, hbox]
  · intro boxes' hmem
    obtain ⟨box', ho, rfl⟩ := Option.map_eq_some_iff.1 hmem
    refine h.set ?_ fun j hj => ?_
    · rw [hsame, SiteBag.points_addSink, ← hsame]
      exact hsome box' ho
    · rw [rest.points_addSink_of_ne hj, rest.points_addSink_of_ne (hsame ▸ hj)]

/-- A sink leaves its box and joins another. -/
theorem BoxesMeasure.transfer (h : BoxesMeasure form layers boxes (rest.addSink p.old))
    (hl : layers ≤ Word.size64) (hold : p.old.OnLayers layers) (hnew : p.new.OnLayers layers)
    (room : rest.sinks.card + 2 < Word.size32) :
    ∃ box, boxes[boxOf form p.old.layer]? = some box ∧
      ∃ o, box.exclude? p.old.x p.old.y = .ok o ∧ (o = none ↔ box.IsAlone p.old.point) ∧
        ∀ box' ∈ o, ∃ boxes', change (boxes.set (boxOf form p.old.layer) box')
          (boxOf form p.new.layer) (·.include p.new.x p.new.y) = .ok boxes' ∧
          BoxesMeasure form layers boxes' (rest.addSink p.new) := by
  obtain ⟨box, hbox⟩ := h.exists_box hl hold
  have hexact := h.box _ box hbox
  rw [SiteBag.points_addSink] at hexact
  obtain ⟨o, hleave, hnone, hsome⟩ := hexact.exclude? (Multiset.mem_cons_self _ _)
  rw [Multiset.erase_cons_head] at hsome
  refine ⟨box, hbox, o, hleave, hnone, fun box' ho => ?_⟩
  -- in between, the boxes are exact for the other pins
  have hrest : BoxesMeasure form layers (boxes.set (boxOf form p.old.layer) box') rest :=
    h.set (hsome box' ho) fun j hj => (rest.points_addSink_of_ne hj).symm
  obtain ⟨target, htarget⟩ := hrest.exists_box hl hnew
  have hcard := rest.card_points_le form (boxOf form p.new.layer)
  obtain ⟨target', hjoin, htarget'⟩ :=
    (hrest.box _ target htarget).join (p := p.new.point) (by omega)
  refine ⟨_, change_eq_ok.2 ⟨target, target', htarget, hjoin, rfl⟩, hrest.set ?_ fun j hj => ?_⟩
  · rw [SiteBag.points_addSink]
    exact htarget'
  · exact rest.points_addSink_of_ne hj

/-! ## Counts of a moving sink -/

/-- A sink that stays on its layer leaves the counts as they are, and they still fit. -/
theorem sinksOn_of_slot_eq (h : p.old.slot = p.new.slot) (hfits : (rest.addSink p.old).Fits) :
    (rest.addSink p.old).sinksOn = (rest.addSink p.new).sinksOn ∧ (rest.addSink p.new).Fits := by
  have hsinks : (rest.addSink p.old).sinksOn = (rest.addSink p.new).sinksOn := by
    rw [SiteBag.sinksOn_addSink, SiteBag.sinksOn_addSink, h]
  rw [SiteBag.Fits, hsinks] at hfits
  exact ⟨hsinks, hfits⟩

/-- A sink that changes its layer is counted there, as long as the count fits its word. -/
theorem recount_eq_ok (hl : layers ≤ Word.size64) (hold : p.old.OnLayers layers)
    (hnew : p.new.OnLayers layers) (hfits : (rest.addSink p.old).Fits) :
    ∃ ns, uncountSink (counts layers (rest.addSink p.old).sinksOn) p.old.layer = .ok ns ∧
      ∀ ns', countSink ns p.new.layer = .ok ns' ↔
        (rest.addSink p.new).Fits ∧ counts layers (rest.addSink p.new).sinksOn = ns' := by
  obtain ⟨hrest, hfit⟩ := SiteBag.fits_addSink.1 hfits
  refine ⟨counts layers rest.sinksOn, ?_, fun ns' => ?_⟩
  · rw [SiteBag.sinksOn_addSink, uncountSink_eq (hold.slot_lt hl) (by simp) (by simpa using hfit)]
    simp
  · rw [countSink_eq_ok (hnew.slot_lt hl), SiteBag.fits_addSink, SiteBag.sinksOn_addSink]
    simp [hrest]

/-! ## Boxes of a moving driver -/

/-- Under the cube form, the one box is over all pins. -/
theorem boxesMeasure_cube {box : EdgeBox} (h : box.Measures (b.points .cube 0)) :
    BoxesMeasure .cube layers [box] b := by
  refine ⟨rfl, fun i c hc => ?_⟩
  cases i with
  | zero =>
    cases hc
    exact h
  | succ i => simp at hc

/-- The points of the sinks that belong to a box. -/
def sinkPoints (form : BoxForm) (b : SiteBag) (i : Nat) : Multiset (Int × Int) :=
  (b.sinks.filter fun s => boxOf form s.layer = i).map Site.point

theorem sinkPoints_eq_zero {i : Nat} :
    sinkPoints form b i = 0 ↔ ¬ ∃ s ∈ b.sinks, boxOf form s.layer = i := by
  simp [sinkPoints, Multiset.filter_eq_nil]

/-- A layer without sinks is one whose box is over the driver only. -/
theorem sinksOn_eq_zero {l : Nat} : b.sinksOn l = 0 ↔ sinkPoints .perLayer b l = 0 := by
  rw [sinkPoints_eq_zero, SiteBag.sinksOn, Multiset.count_eq_zero, Multiset.mem_map]
  rfl

theorem card_sinkPoints_le (form : BoxForm) (b : SiteBag) (i : Nat) :
    (sinkPoints form b i).card ≤ b.sinks.card := by
  rw [sinkPoints, Multiset.card_map]
  exact Multiset.card_le_card (Multiset.filter_le _ _)

/-- The driver moves in one box, which is over the driver only if it has no sinks. -/
theorem shiftHead_spec {p : PinShift} {box : EdgeBox} {n : Int} {sinks : Multiset (Int × Int)}
    (h : box.Measures (p.old.point ::ₘ sinks)) (hzero : n = 0 ↔ sinks = 0)
    (room : sinks.card + 1 < Word.size32) :
    ∃ o, (if n = 0 then .ok (some (EdgeBox.point p.new.x p.new.y))
        else box.shift? (p.old.x, p.old.y) (p.new.x, p.new.y)) = Except.ok o ∧
      (o = none ↔ sinks ≠ 0 ∧ box.IsAbandoned p.old.point p.new.point) ∧
      ∀ box' ∈ o, box'.Measures (p.new.point ::ₘ sinks) := by
  by_cases hn : n = 0
  · refine ⟨_, if_pos hn, by simp [hzero.1 hn], ?_⟩
    rintro box' ⟨⟩
    rw [hzero.1 hn]
    exact .point p.new.x p.new.y
  · obtain ⟨o, hshift, hnone, hsome⟩ := h.shift_cons p.new.point room
    refine ⟨o, by rw [if_neg hn]; exact hshift, ?_, hsome⟩
    rw [hnone]
    exact ⟨fun ha => ⟨fun hs => hn (hzero.2 hs), ha⟩, And.right⟩

/-- **The driver moves in every box,** of which some are over the driver only. The induction is on
the boxes, each with its own sinks. -/
theorem shiftDriver?_spec (p : PinShift) (l : List (EdgeBox × Int))
    (sinks : Nat → Multiset (Int × Int))
    (h : ∀ (i : Nat) (box : EdgeBox) (n : Int), l[i]? = some (box, n) →
      box.Measures (p.old.point ::ₘ sinks i) ∧ (n = 0 ↔ sinks i = 0) ∧
        (sinks i).card + 1 < Word.size32) :
    ∃ o, shiftDriver? p l = .ok o ∧
      (o = none ↔ ∃ (i : Nat) (box : EdgeBox) (n : Int), l[i]? = some (box, n) ∧ sinks i ≠ 0 ∧
        box.IsAbandoned p.old.point p.new.point) ∧
      ∀ boxes ∈ o, boxes.length = l.length ∧ ∀ (i : Nat) (box : EdgeBox), boxes[i]? = some box →
        box.Measures (p.new.point ::ₘ sinks i) := by
  induction l generalizing sinks with
  | nil =>
    refine ⟨some [], rfl, by simp, ?_⟩
    rintro boxes ⟨⟩
    exact ⟨rfl, by simp⟩
  | cons x l ih =>
    obtain ⟨box, n⟩ := x
    obtain ⟨hbox, hzero, room⟩ := h 0 box n rfl
    obtain ⟨o₀, hrun₀, hnone₀, hsome₀⟩ := shiftHead_spec hbox hzero room
    obtain ⟨o, hrun, hnone, hsome⟩ := ih (fun i => sinks (i + 1)) fun i c m hc => h (i + 1) c m hc
    rw [shiftDriver?_cons, hrun₀, Checked.ok_bind]
    cases o₀ with
    | none =>
      refine ⟨none, rfl, ?_, by simp⟩
      -- the first box refuses already
      obtain ⟨hs, ha⟩ := hnone₀.1 rfl
      exact ⟨fun _ => ⟨0, box, n, rfl, hs, ha⟩, fun _ => rfl⟩
    | some box' =>
      dsimp only
      rw [hrun, Checked.ok_bind]
      -- the first box is kept, so only a later one can refuse
      have hkept : ¬ (sinks 0 ≠ 0 ∧ box.IsAbandoned p.old.point p.new.point) := by
        rw [← hnone₀]
        simp
      have hsplit : (∃ (i : Nat) (c : EdgeBox) (m : Int), ((box, n) :: l)[i]? = some (c, m) ∧
          sinks i ≠ 0 ∧ c.IsAbandoned p.old.point p.new.point) ↔ o = none := by
        rw [hnone]
        constructor
        · rintro ⟨i, c, m, hc, hs, ha⟩
          cases i with
          | zero =>
            cases hc
            exact absurd ⟨hs, ha⟩ hkept
          | succ i => exact ⟨i, c, m, hc, hs, ha⟩
        · rintro ⟨i, c, m, hc, hs, ha⟩
          exact ⟨i + 1, c, m, hc, hs, ha⟩
      cases o with
      | none => exact ⟨none, rfl, by rw [hsplit], by simp⟩
      | some boxes =>
        refine ⟨some (box' :: boxes), rfl, by rw [hsplit]; simp, ?_⟩
        rintro _ ⟨⟩
        obtain ⟨hlen, hboxes⟩ := hsome boxes rfl
        refine ⟨by simp [hlen], fun i c hc => ?_⟩
        cases i with
        | zero =>
          cases hc
          exact hsome₀ box' rfl
        | succ i => exact hboxes i c hc

/-! ## Geometries -/

/-- What a move of one pin makes of an exact geometry: `o` is exact for the new sites, or nothing
when the move takes an edge away, and it is reached as long as the sinks of each layer can be
counted. -/
structure Follows (form : BoxForm) (layers : Nat) (g : Geometry) (b : SiteBag) (p : PinShift)
    (run : Checked (Option Geometry)) (o : Option Geometry) : Prop where
  none_iff : o = none ↔ g.Loses form b p
  measures : ∀ g' ∈ o, g'.Measures form layers (b.shift p)
  run_iff : ∀ r, run = .ok r ↔ (o = none ∨ (b.shift p).Fits) ∧ o = r

namespace Measures

variable (h : g.Measures form layers b) (hl : layers ≤ Word.size64)

include h in
/-- A moving driver leaves the sinks on their layers. -/
theorem shift_driver (hp : p.drives = true) (hboxes : BoxesMeasure form layers boxes (b.shift p)) :
    Measures form layers { g with boxes } (b.shift p) where
  onLayers := by
    rw [SiteBag.shift, hp]
    exact h.onLayers
  boxes := hboxes
  sinkCounts := by
    rw [SiteBag.shift, hp]
    exact h.sinkCounts

include h in
/-- Each box stands beside the count of its sinks. -/
theorem getElem?_zip_eq_some {i : Nat} {box : EdgeBox} {n : Int} :
    (g.boxes.zip g.sinks)[i]? = some (box, n) ↔
      g.boxes[i]? = some box ∧ i < layers ∧ (b.sinksOn i : Int) = n := by
  rw [List.getElem?_zip_eq_some, h.sinkCounts]
  refine and_congr_right fun _ => ?_
  by_cases hi : i < layers
  · rw [getElem?_counts hi, Option.some.injEq, and_iff_right hi]
  · have hnone : (counts layers b.sinksOn)[i]? = none := by
      simpa [counts] using hi
    simp [hnone, hi]

include h in
/-- The driver moves under the per-layer form. -/
theorem shiftPerLayer?_driver (hform : form = .perLayer) (hp : p.drives = true)
    (hheld : b.Holds p) (hfits : b.Fits) (room : b.sinks.card + 1 < Word.size32) :
    ∃ o, Follows form layers g b p (g.shiftPerLayer? p) o := by
  subst hform
  have hold : p.old = b.driver := by rwa [SiteBag.Holds, hp] at hheld
  obtain ⟨o, hrun, hnone, hsome⟩ := shiftDriver?_spec p (g.boxes.zip g.sinks)
    (sinkPoints .perLayer b) (by
      intro i box n hi
      obtain ⟨hbox, -, rfl⟩ := h.getElem?_zip_eq_some.1 hi
      have hcard := card_sinkPoints_le .perLayer b i
      refine ⟨?_, ?_, by omega⟩
      · rw [hold]
        exact h.boxes.box i box hbox
      · rw [← sinksOn_eq_zero]
        exact Int.natCast_eq_zero)
  refine ⟨o.map fun boxes => { g with boxes }, ?_, ?_, ?_⟩
  · rw [Option.map_eq_none_iff, hnone, Loses, if_pos hp]
    constructor
    · rintro ⟨i, box, n, hi, hs, ha⟩
      rw [Ne, sinkPoints_eq_zero, not_not] at hs
      exact ⟨i, box, (h.getElem?_zip_eq_some.1 hi).1, hs, ha⟩
    · rintro ⟨i, box, hi, hs, ha⟩
      have hlt := (List.getElem?_eq_some_iff.1 hi).1
      rw [h.boxes.length] at hlt
      refine ⟨i, box, _, h.getElem?_zip_eq_some.2 ⟨hi, hlt, rfl⟩, ?_, ha⟩
      rwa [Ne, sinkPoints_eq_zero, not_not]
  · intro g' hg'
    obtain ⟨boxes, ho, rfl⟩ := Option.map_eq_some_iff.1 hg'
    obtain ⟨hlen, hboxes⟩ := hsome boxes ho
    refine h.shift_driver hp ⟨?_, fun i box hi => ?_⟩
    · rw [hlen, List.length_zip, h.boxes.length, h.sinkCounts, counts, List.length_map,
        List.length_range]
      exact Nat.min_self layers
    · rw [SiteBag.points_shift_driver _ _ hp]
      exact hboxes i box hi
  · intro r
    have hfits' : (b.shift p).Fits := by
      rw [SiteBag.shift, hp]
      exact hfits
    rw [shiftPerLayer?, if_pos hp, hrun, Checked.ok_bind]
    cases o <;> simp [hfits']

include h hl in
/-- The driver moves under the cube form. -/
theorem shiftCube?_driver (hform : form = .cube) (hp : p.drives = true) (hheld : b.Holds p)
    (hfits : b.Fits) (room : b.sinks.card + 1 < Word.size32) :
    ∃ o, Follows form layers g b p (g.shiftCube? p) o := by
  subst hform
  have hold : p.old = b.driver := by rwa [SiteBag.Holds, hp] at hheld
  have hfits' : (b.shift p).Fits := by
    rw [SiteBag.shift, hp]
    exact hfits
  obtain ⟨box, hboxes⟩ : ∃ box, g.boxes = [box] := List.length_eq_one_iff.1 h.boxes.length
  have hloses : g.Loses .cube b p ↔ b.sinks ≠ 0 ∧ box.IsAbandoned p.old.point p.new.point := by
    rw [Loses, if_pos hp, hboxes]
    constructor
    · rintro ⟨i, c, hc, ⟨s, hs, hi⟩, ha⟩
      cases i with
      | zero =>
        cases hc
        exact ⟨fun hzero => by simp [hzero] at hs, ha⟩
      | succ i => simp at hc
    · rintro ⟨hs, ha⟩
      obtain ⟨s, hs⟩ := Multiset.exists_mem_of_ne_zero hs
      exact ⟨0, box, rfl, ⟨s, hs, rfl⟩, ha⟩
  have hpoints := SiteBag.points_shift_driver .cube b hp 0
  have hsize : Word.size32 ≤ Word.size64 := by decide
  rw [shiftCube?, if_pos hp, h.sinkTotal hl (by omega)]
  by_cases hempty : b.sinks = 0
  · refine ⟨some { g with boxes := [.point p.new.x p.new.y] }, by simp [hloses, hempty], ?_, ?_⟩
    · rintro g' ⟨⟩
      refine h.shift_driver hp (boxesMeasure_cube ?_)
      rw [hpoints, hempty]
      exact .point p.new.x p.new.y
    · intro r
      simp [hempty, Except.map, hboxes, hfits']
  · have hexact := h.boxes.box 0 box (by rw [hboxes]; rfl)
    rw [SiteBag.points, ← hold] at hexact
    have hcard := card_sinkPoints_le .cube b 0
    obtain ⟨o, hshift, hnone, hsome⟩ := hexact.shift_cons p.new.point
      (by simp only [sinkPoints] at hcard; omega)
    refine ⟨o.map fun box' => { g with boxes := [box'] }, ?_, ?_, ?_⟩
    · simp [hloses, hempty, hnone]
    · intro g' hg'
      obtain ⟨box', ho, rfl⟩ := Option.map_eq_some_iff.1 hg'
      refine h.shift_driver hp (boxesMeasure_cube ?_)
      rw [hpoints]
      exact hsome box' ho
    · intro r
      have hrun : Geometry.shiftBox? g.boxes 0 p = .ok (o.map fun box' => [box']) := by
        simp only [Site.point] at hshift
        rw [Geometry.shiftBox?, hboxes, entry_of_some (by rfl), Checked.ok_bind, hshift,
          Checked.ok_bind]
        cases o <;> rfl
      cases o <;> simp [hempty, Except.map, hrun, hfits', hp]

include h in
/-- The moving sink among the sinks of an exact geometry. -/
theorem exists_rest (hp : p.drives = false) (hheld : b.Holds p) :
    ∃ rest : SiteBag, b = rest.addSink p.old ∧ b.shift p = rest.addSink p.new ∧
      p.old.OnLayers layers ∧ b.sinks.card = rest.sinks.card + 1 := by
  obtain ⟨rest, hrest, hshift⟩ := SiteBag.exists_rest hp hheld
  refine ⟨rest, hrest, hshift, h.onLayers p.old ?_, ?_⟩
  · rw [hrest]
    exact Multiset.mem_cons_self _ _
  · rw [hrest]
    exact Multiset.card_cons _ _

include h in
/-- A sink that has moved: what is left to show is that its boxes and its counts are exact. -/
theorem shift_sink (hrest : b = rest.addSink p.old) (hshift : b.shift p = rest.addSink p.new)
    (hnew : p.new.OnLayers layers)
    (hboxes : BoxesMeasure form layers boxes (rest.addSink p.new)) :
    Measures form layers ⟨boxes, counts layers (rest.addSink p.new).sinksOn⟩ (b.shift p) := by
  rw [hshift]
  refine ⟨fun s hs => ?_, hboxes, rfl⟩
  obtain rfl | hs := Multiset.mem_cons.1 hs
  · exact hnew
  · refine h.onLayers s ?_
    rw [hrest]
    exact Multiset.mem_cons_of_mem hs

include h hl in
/-- A sink moves under the cube form. -/
theorem shiftCube?_sink (hform : form = .cube) (hp : p.drives = false) (hheld : b.Holds p)
    (hnew : p.new.OnLayers layers) (hfits : b.Fits) (room : b.sinks.card + 1 < Word.size32) :
    ∃ o, Follows form layers g b p (g.shiftCube? p) o := by
  subst hform
  obtain ⟨rest, hrest, hshift, hold, hcard⟩ := h.exists_rest hp hheld
  have hexact := h.boxes
  have hcounts := h.sinkCounts
  rw [hrest] at hexact hcounts hfits
  obtain ⟨o, hrun, hnone, hsome⟩ := hexact.shiftBox? hl hold rfl (by omega)
  refine ⟨o.map fun boxes => ⟨boxes, counts layers (rest.addSink p.new).sinksOn⟩, ?_, ?_, ?_⟩
  · rw [Option.map_eq_none_iff, hnone, Loses, if_neg (by simp [hp])]
    simp [boxOf]
  · intro g' hg'
    obtain ⟨boxes, ho, rfl⟩ := Option.map_eq_some_iff.1 hg'
    exact h.shift_sink hrest hshift hnew (hsome boxes ho)
  · intro r
    have hrun' : Geometry.shiftBox? g.boxes 0 p = .ok o := hrun
    rw [shiftCube?, if_neg (by simp [hp]), Checked.ok_bind]
    dsimp only
    rw [if_neg (by simp), hrun', Checked.ok_bind, hshift]
    cases o with
    | none => simp
    | some boxes =>
      -- the counts change with the layer only
      by_cases hlayer : p.old.layer = p.new.layer
      · obtain ⟨hsinks, hfits'⟩ := sinksOn_of_slot_eq ((hold.slot_inj hnew hl).2 hlayer) hfits
        rw [hsinks] at hcounts
        simp [hlayer, hfits', ← hcounts]
      · obtain ⟨ns, huncount, hcount⟩ := recount_eq_ok hl hold hnew hfits
        simp only [hp, hlayer, Bool.false_eq_true, not_false_eq_true, ne_eq, and_self, if_true,
          hcounts, huncount, Checked.ok_bind, Checked.bind_eq_ok, hcount, Except.ok.injEq,
          Option.map_some, reduceCtorEq, false_or]
        constructor
        · rintro ⟨_, ⟨hfit, rfl⟩, rfl⟩
          exact ⟨hfit, rfl⟩
        · rintro ⟨hfit, rfl⟩
          exact ⟨_, ⟨hfit, rfl⟩, rfl⟩

include h hl in
/-- A sink moves under the per-layer form. -/
theorem shiftPerLayer?_sink (hform : form = .perLayer) (hp : p.drives = false)
    (hheld : b.Holds p) (hnew : p.new.OnLayers layers) (hfits : b.Fits)
    (room : b.sinks.card + 1 < Word.size32) :
    ∃ o, Follows form layers g b p (g.shiftPerLayer? p) o := by
  subst hform
  obtain ⟨rest, hrest, hshift, hold, hcard⟩ := h.exists_rest hp hheld
  have hexact := h.boxes
  have hcounts := h.sinkCounts
  rw [hrest] at hexact hcounts hfits
  by_cases hlayer : p.old.layer = p.new.layer
  · -- the sink stays in its box
    have hsame : boxOf .perLayer p.old.layer = boxOf .perLayer p.new.layer := by rw [hlayer]
    obtain ⟨o, hrun, hnone, hsome⟩ := hexact.shiftBox? hl hold hsame (by omega)
    refine ⟨o.map fun boxes => ⟨boxes, counts layers (rest.addSink p.new).sinksOn⟩, ?_, ?_, ?_⟩
    · rw [Option.map_eq_none_iff, hnone, Loses, if_neg (by simp [hp])]
      simp [hsame]
    · intro g' hg'
      obtain ⟨boxes, ho, rfl⟩ := Option.map_eq_some_iff.1 hg'
      exact h.shift_sink hrest hshift hnew (hsome boxes ho)
    · intro r
      have hrun' : Geometry.shiftBox? g.boxes (Word.asNat64 p.old.layer) p = .ok o := hrun
      obtain ⟨hsinks, hfits'⟩ := sinksOn_of_slot_eq ((hold.slot_inj hnew hl).2 hlayer) hfits
      rw [hsinks] at hcounts
      rw [shiftPerLayer?, if_neg (by simp [hp]), if_pos hlayer, hrun', Checked.ok_bind, hshift]
      cases o <;> simp [hfits', ← hcounts]
  · -- the sink leaves one box and joins another
    have hdiff : boxOf .perLayer p.old.layer ≠ boxOf .perLayer p.new.layer :=
      fun hsame => hlayer ((hold.slot_inj hnew hl).1 hsame)
    obtain ⟨box, hbox, o, hleave, hnone, hsome⟩ := hexact.transfer hl hold hnew (by omega)
    obtain ⟨ns, huncount, hcount⟩ := recount_eq_ok hl hold hnew hfits
    have hloses : g.Loses .perLayer b p ↔ o = none := by
      rw [Loses, if_neg (by simp [hp]), hnone]
      simp [hbox, hdiff]
    have hentry : entry g.boxes (Word.asNat64 p.old.layer) = .ok box := entry_of_some hbox
    cases o with
    | none =>
      refine ⟨none, by simp [hloses], by simp, fun r => ?_⟩
      rw [shiftPerLayer?, if_neg (by simp [hp]), if_neg hlayer, hentry, Checked.ok_bind, hleave,
        Checked.ok_bind]
      simp
    | some box' =>
      obtain ⟨boxes', hjoin, hboxes'⟩ := hsome box' rfl
      have hjoin' : change (g.boxes.set (Word.asNat64 p.old.layer) box')
          (Word.asNat64 p.new.layer) (·.include p.new.x p.new.y) = .ok boxes' := hjoin
      refine ⟨some ⟨boxes', counts layers (rest.addSink p.new).sinksOn⟩, by simp [hloses], ?_,
        fun r => ?_⟩
      · rintro g' ⟨⟩
        exact h.shift_sink hrest hshift hnew hboxes'
      · rw [shiftPerLayer?, if_neg (by simp [hp]), if_neg hlayer, hentry, Checked.ok_bind, hleave,
          Checked.ok_bind]
        dsimp only
        rw [hjoin', Checked.ok_bind, hcounts, huncount, Checked.ok_bind, hshift]
        simp only [Checked.bind_eq_ok, hcount, Except.ok.injEq, reduceCtorEq, false_or]
        constructor
        · rintro ⟨_, ⟨hfit, rfl⟩, rfl⟩
          exact ⟨hfit, rfl⟩
        · rintro ⟨hfit, rfl⟩
          exact ⟨_, ⟨hfit, rfl⟩, rfl⟩

include h hl in
/-- **One pin of an exact geometry moves.** The result is exact for the new sites, or the move is
refused because it takes an edge away. -/
theorem shift? (hheld : b.Holds p) (hnew : p.new.OnLayers layers) (hfits : b.Fits)
    (room : b.sinks.card + 1 < Word.size32) :
    ∃ o, Follows form layers g b p (Geometry.shift? form g p) o := by
  cases hp : p.drives with
  | true =>
    cases form with
    | cube => exact h.shiftCube?_driver hl rfl hp hheld hfits room
    | perLayer => exact h.shiftPerLayer?_driver rfl hp hheld hfits room
  | false =>
    cases form with
    | cube => exact h.shiftCube?_sink hl rfl hp hheld hnew hfits room
    | perLayer => exact h.shiftPerLayer?_sink hl rfl hp hheld hnew hfits room

end Measures

end Geometry

end WireCost
