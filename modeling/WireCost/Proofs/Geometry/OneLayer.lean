import WireCost.Proofs.Geometry.Table
import WireCost.Proofs.Scalar

/-! # Geometries on one layer

A device with one layer gives a net one box in either form. The forms have their own ways to keep it
in step; on one layer these come to the same.

* **`Geometry.OneLayer`** — a geometry with one box and one sink count.
* **`Geometry.agree_scan`**, **`Geometry.OneLayer.agree_shift`** — both forms scan a net and follow
  a pin alike.
* **`Geometry.OneLayer.agree_measure`** — both forms measure it alike, if a sum of one term is that
  term and a sum of none is zero.
* **`GeometryTable.BothForms`** — a table of either form with the same geometries. -/

namespace WireCost

/-- On a device with one layer all pins are on that layer. -/
theorem Interior.layer_of_clip {i : Interior} {s t : Site} (hi : i.layers = 1)
    (h : i.clip s = .ok t) : t.layer = 0 := by
  obtain ⟨_, hlayer, h⟩ := Checked.bind_eq_ok.1 h
  obtain ⟨x, -, h⟩ := Checked.bind_eq_ok.1 h
  obtain ⟨y, -, h⟩ := Checked.bind_eq_ok.1 h
  cases h
  obtain ⟨hlow, hhigh⟩ := require_eq_ok.1 hlayer
  rw [hi] at hhigh
  dsimp only
  omega

theorem Netlist.layer_of_sitesOf {nl : Netlist} {i : Interior} {n : NetId} {sites : NetSites}
    (hi : i.layers = 1) (h : nl.sitesOf i n = .ok sites) : ∀ s ∈ sites.sinks, s.layer = 0 := by
  obtain ⟨driver, -, h⟩ := Checked.bind_eq_ok.1 h
  obtain ⟨source, -, h⟩ := Checked.bind_eq_ok.1 h
  obtain ⟨clipped, -, h⟩ := Checked.bind_eq_ok.1 h
  obtain ⟨net, -, h⟩ := Checked.bind_eq_ok.1 h
  obtain ⟨sinks, hsinks, h⟩ := Checked.bind_eq_ok.1 h
  cases h
  intro s hs
  have hmem := List.mem_map_of_mem (f := (Except.ok : Site → Checked Site)) hs
  rw [← Checked.mapM_eq_ok.1 hsinks] at hmem
  obtain ⟨sink, -, hclip⟩ := List.mem_map.1 hmem
  obtain ⟨site, -, hclip⟩ := Checked.bind_eq_ok.1 hclip
  exact Interior.layer_of_clip hi hclip

namespace Geometry

/-- **A geometry on one layer:** one box, and a number of sinks that fits a signed word. -/
inductive OneLayer : Geometry → Prop where
  | mk (box : EdgeBox) (n : Nat) (h : n < Word.size31) : OneLayer ⟨[box], [(n : Int)]⟩

/-! ## From scratch -/

theorem oneLayer_blank (form : BoxForm) : (blank form 1).OneLayer := by
  cases form with
  | cube => exact .mk .blank 0 (by decide)
  | perLayer => exact .mk .blank 0 (by decide)

/-- **A sink joins the one box** in either form. -/
theorem OneLayer.addSink {g : Geometry} {s : Site} (h : g.OneLayer) (hs : s.layer = 0) :
    Checked.Agree (fun g₁ g₂ => g₂ = g₁ ∧ g₁.OneLayer) (addSink .cube g s)
      (addSink .perLayer g s) := by
  obtain ⟨box, n, hn⟩ := h
  have hbox : boxOf .perLayer s.layer = boxOf .cube s.layer := by
    rw [hs]
    rfl
  rw [Geometry.addSink, Geometry.addSink, hbox, countSink, hs]
  refine .bind_same fun boxes hboxes => .bind_same fun sinks hsinks => .ok ⟨rfl, ?_⟩
  obtain ⟨old, new, -, -, rfl⟩ := change_eq_ok.1 hboxes
  obtain ⟨count, count', hcount, hcount', rfl⟩ := change_eq_ok.1 hsinks
  cases hcount
  obtain ⟨⟨-, hhigh⟩, rfl⟩ := Word.int32_eq_ok.1 hcount'
  have hroom : n + 1 < 2147483648 := by omega
  exact .mk new (n + 1) hroom

/-- **Both forms scan a net alike.** -/
theorem agree_scan {sites : NetSites} (h : ∀ s ∈ sites.sinks, s.layer = 0) :
    Checked.Agree (fun g₁ g₂ => g₂ = g₁ ∧ g₁.OneLayer) (scan .cube 1 sites)
      (scan .perLayer 1 sites) := by
  refine .foldlM ⟨rfl, .mk (.point sites.driver.x sites.driver.y) 0 (by decide)⟩ ?_
  rintro g _ s hs ⟨rfl, hg⟩
  exact hg.addSink (h s hs)

/-! ## One pin at a time -/

/-- The number of sinks on the one layer is the number of all sinks. -/
theorem sinkTotal_oneLayer (box : EdgeBox) {n : Nat} (h : n < Word.size31) :
    sinkTotal ⟨[box], [(n : Int)]⟩ = .ok n := by
  have hn : n < Word.size64 := Nat.lt_trans h (by decide)
  rw [sinkTotal, List.foldlM_cons, Word.asNat64_ofNat hn, Nat.zero_add, Word.nat64, if_pos hn]
  rfl

/-- What can be told of a moved pin is the same in both forms. Neither changes the sink count, as no
pin leaves the layer, and a driver without sinks takes the box along in both. -/
theorem OneLayer.agree_shift? {g : Geometry} {p : PinShift} (h : g.OneLayer)
    (hold : p.old.layer = 0) (hnew : p.new.layer = 0) :
    Checked.Agree (fun o₁ o₂ => o₂ = o₁ ∧ ∀ g' ∈ o₁, g'.OneLayer) (shift? .cube g p)
      (shift? .perLayer g p) := by
  obtain ⟨box, n, hn⟩ := h
  have hslot : Word.asNat64 (0 : Int) = 0 := rfl
  have hmoved : ∀ box', (⟨[box'], [(n : Int)]⟩ : Geometry).OneLayer := fun box' => .mk box' n hn
  rw [shift?, shift?, shiftCube?, shiftPerLayer?, sinkTotal_oneLayer box hn]
  cases hdrives : p.drives with
  | false =>
    simp only [hold, hnew, hslot, Bool.false_eq_true, if_false, if_true, ne_eq,
      not_true_eq_false, and_false, Checked.ok_bind]
    refine .bind_same fun boxes? hboxes => ?_
    obtain ⟨old, -, hboxes⟩ := Checked.bind_eq_ok.1 hboxes
    obtain ⟨box?, -, hboxes⟩ := Checked.bind_eq_ok.1 hboxes
    cases box? with
    | none =>
      cases hboxes
      exact .ok ⟨rfl, by simp⟩
    | some box' =>
      cases hboxes
      exact .ok ⟨rfl, by simpa using hmoved box'⟩
  | true =>
    have halone : Except.map (fun total : Nat => total == 0) (.ok n : Checked Nat) =
        .ok (decide (n = 0)) := rfl
    simp only [halone, not_true_eq_false, false_and, if_true, if_false, Checked.ok_bind,
      decide_eq_true_eq, List.zip_cons_cons, List.zip_nil_left, shiftDriver?_cons,
      shiftDriver?_nil, Int.natCast_eq_zero]
    by_cases hn0 : n = 0
    · rw [if_pos hn0, if_pos hn0]
      exact .ok ⟨rfl, by simpa using hmoved _⟩
    · rw [if_neg hn0, if_neg hn0]
      have hentry : entry [box] 0 = (.ok box : Checked EdgeBox) := rfl
      rw [shiftBox?, hentry, Checked.ok_bind]
      rcases box.shift? (p.old.x, p.old.y) (p.new.x, p.new.y) with fault | (_ | box')
      · exact .error fault
      · exact .ok ⟨rfl, by simp⟩
      · exact .ok ⟨rfl, by simpa using hmoved box'⟩

/-- A single box that cannot follow stays as it was. -/
theorem OneLayer.shift_eq {g : Geometry} (h : g.OneLayer) (form : BoxForm) (p : PinShift) :
    g.shift form p = g.shift? form p >>= fun o => .ok (o.getD g, o.isSome) := by
  obtain ⟨box, n, -⟩ := h
  unfold shift
  by_cases hdriver : form = .perLayer ∧ p.drives = true
  · rw [if_pos hdriver, hdriver.1, shift?, shiftPerLayer?, if_pos hdriver.2, shiftDriver?]
    simp only [List.zip_cons_cons, List.zip_nil_left, shiftDriver, ← Checked.ite_bind]
    generalize (if (n : Int) = 0 then Except.ok (some (EdgeBox.point p.new.x p.new.y))
      else box.shift? (p.old.x, p.old.y) (p.new.x, p.new.y) : Checked (Option EdgeBox)) = head
    rcases head with fault | (_ | box') <;> rfl
  · rw [if_neg hdriver]
    rcases shift? form ⟨[box], [(n : Int)]⟩ p with fault | (_ | g') <;> rfl

/-- **Both forms follow a pin alike.** -/
theorem OneLayer.agree_shift {g : Geometry} {p : PinShift} (h : g.OneLayer)
    (hold : p.old.layer = 0) (hnew : p.new.layer = 0) :
    Checked.Agree (fun r₁ r₂ => r₂ = r₁ ∧ r₁.1.OneLayer) (shift .cube g p)
      (shift .perLayer g p) := by
  rw [h.shift_eq, h.shift_eq]
  refine (h.agree_shift? hold hnew).bind ?_
  rintro _ o ⟨rfl, hmoved⟩
  cases o with
  | none => exact .ok ⟨rfl, h⟩
  | some g' => exact .ok ⟨rfl, hmoved g' rfl⟩

/-! ## Measures -/

variable {α : Type} [CostScalar α] {R : α → α → Prop}

/-- **Both forms measure a geometry alike:** the box of a net without sinks counts for nothing in
either form, and any other box is the only term of a sum. -/
theorem OneLayer.agree_measure {g : Geometry} (h : g.OneLayer) (hsums : PlainSums R)
    (ofBox : EdgeBox → Nat → Checked α) :
    Checked.Agree R (g.measure .cube ofBox) (g.measure .perLayer ofBox) := by
  obtain ⟨box, n, hn⟩ := h
  rw [measure, measure, sinkTotal_oneLayer box hn, Checked.ok_bind]
  have hroom : n + 1 < Word.size64 := Nat.lt_of_lt_of_le (Nat.succ_lt_succ hn) (by decide)
  have hentry : entry [box] 0 = (.ok box : Checked EdgeBox) := rfl
  dsimp only
  by_cases hn0 : n = 0
  · subst hn0
    exact .ok hsums.empty
  · have hpos : (0 : Int) < n := by omega
    rw [if_neg hn0, hentry, Checked.ok_bind, Word.nat64, if_pos hroom, Checked.ok_bind]
    simp only [List.zip_cons_cons, List.zip_nil_left, List.filter_cons, hpos, decide_true, if_true,
      List.filter_nil, List.mapM_cons, List.mapM_nil, Int.toNat_natCast]
    rcases ofBox box (n + 1) with fault | cost
    · exact .error fault
    · exact .ok (hsums.single cost)

end Geometry

/-! ## Tables -/

namespace GeometryTable

/-- **A table of either form with the same geometries,** all of them on one layer. -/
structure BothForms (t t' : GeometryTable) : Prop where
  form : t.form = .cube
  layers : t.layers = 1
  same : t' = { t with form := .perLayer }
  committed : ∀ g ∈ t.committed, g.OneLayer
  proposed : ∀ g ∈ t.proposed, g.OneLayer

/-- **Blank tables.** They take the same room. -/
theorem agree_blank (nets : Nat) :
    Checked.Agree BothForms (blank .cube nets 1) (blank .perLayer nets 1) := by
  have hblank : ∀ form, ∀ g ∈ (Array.range nets).map fun _ => Geometry.blank form 1,
      g.OneLayer := by
    intro form g hg
    obtain ⟨_, -, rfl⟩ := Array.mem_map.1 hg
    exact Geometry.oneLayer_blank form
  have hroom : requireRoom .perLayer nets 1 = requireRoom .cube nets 1 := rfl
  rw [blank, blank, hroom]
  exact .bind_same fun _ _ => .ok ⟨rfl, rfl, rfl, hblank .cube, hblank .cube⟩

namespace BothForms

variable {t t' : GeometryTable} {nl : Netlist} {i : Interior} {n : NetId}

theorem form' (h : BothForms t t') : t'.form = .perLayer := by rw [h.same]

theorem committed_eq (h : BothForms t t') : t'.committed = t.committed := by rw [h.same]

theorem proposed_eq (h : BothForms t t') : t'.proposed = t.proposed := by rw [h.same]

theorem committedOf (h : BothForms t t') (n : NetId) : t'.committedOf n = t.committedOf n := by
  rw [GeometryTable.committedOf, GeometryTable.committedOf, h.committed_eq]

theorem proposedOf (h : BothForms t t') (n : NetId) : t'.proposedOf n = t.proposedOf n := by
  rw [GeometryTable.proposedOf, GeometryTable.proposedOf, h.proposed_eq]

theorem oneLayer_committedOf (h : BothForms t t') {g : Geometry} (hg : t.committedOf n = .ok g) :
    g.OneLayer :=
  h.committed g (Array.mem_of_getElem? (entry_eq_ok.1 hg))

theorem oneLayer_proposedOf (h : BothForms t t') {g : Geometry} (hg : t.proposedOf n = .ok g) :
    g.OneLayer :=
  h.proposed g (Array.mem_of_getElem? (entry_eq_ok.1 hg))

/-- A geometry that takes the place of a committed one. -/
theorem withCommitted (h : BothForms t t') {g : Geometry} (hg : g.OneLayer) (n : NetId) :
    BothForms (t.withCommitted n g) (t'.withCommitted n g) := by
  refine ⟨h.form, h.layers, by rw [h.same]; rfl, fun x hx => ?_, h.proposed⟩
  exact (Array.mem_or_eq_of_mem_setIfInBounds hx).elim (h.committed x) fun heq => heq ▸ hg

/-- A geometry that takes the place of a proposed one. -/
theorem withProposed (h : BothForms t t') {g : Geometry} (hg : g.OneLayer) (n : NetId) :
    BothForms (t.withProposed n g) (t'.withProposed n g) := by
  refine ⟨h.form, h.layers, by rw [h.same]; rfl, h.committed, fun x hx => ?_⟩
  exact (Array.mem_or_eq_of_mem_setIfInBounds hx).elim (h.proposed x) fun heq => heq ▸ hg

theorem scan (h : BothForms t t') (hi : i.layers = 1) :
    Checked.Agree (fun g g' => g' = g ∧ g.OneLayer) (t.scan nl i n) (t'.scan nl i n) := by
  have hlayers : t'.layers = 1 := by rw [h.same, h.layers]
  rw [GeometryTable.scan, GeometryTable.scan, h.form, h.form', h.layers, hlayers]
  exact .bind_same fun sites hsites => Geometry.agree_scan (Netlist.layer_of_sitesOf hi hsites)

theorem load (h : BothForms t t') (hi : i.layers = 1) :
    Checked.Agree BothForms (t.load nl i n) (t'.load nl i n) := by
  rw [GeometryTable.load, GeometryTable.load, h.committedOf]
  refine .bind_same fun _ _ => (h.scan hi).bind ?_
  rintro g _ ⟨rfl, hg⟩
  exact .ok (h.withCommitted hg n)

theorem propose (h : BothForms t t') (hi : i.layers = 1) :
    Checked.Agree BothForms (t.propose nl i n) (t'.propose nl i n) := by
  rw [GeometryTable.propose, GeometryTable.propose, h.proposedOf]
  refine .bind_same fun _ _ => (h.scan hi).bind ?_
  rintro g _ ⟨rfl, hg⟩
  exact .ok (h.withProposed hg n)

/-- **Following a pin** on the proposed side. -/
theorem shift (h : BothForms t t') (fresh : Bool) {p : PinShift} (hold : p.old.layer = 0)
    (hnew : p.new.layer = 0) :
    Checked.Agree (fun r r' => BothForms r.1 r'.1 ∧ r'.2 = r.2) (t.shift n fresh p)
      (t'.shift n fresh p) := by
  have hbase : ∀ base, (if fresh then t.committedOf n else t.proposedOf n) = .ok base →
      base.OneLayer := by
    intro base hbase
    split at hbase
    · exact h.oneLayer_committedOf hbase
    · exact h.oneLayer_proposedOf hbase
  have hshift : ∀ base : Geometry, base.OneLayer →
      Checked.Agree (fun r₁ r₂ => r₂ = r₁ ∧ r₁.1.OneLayer) (Geometry.shift t.form base p)
        (Geometry.shift t'.form base p) := by
    intro base hone
    rw [h.form, h.form']
    exact hone.agree_shift hold hnew
  simp only [GeometryTable.shift, ← Checked.ite_bind, h.committedOf, h.proposedOf]
  refine .bind_same fun base hok => (hshift base (hbase base hok)).bind ?_
  rintro ⟨g, followed⟩ _ ⟨rfl, hg⟩
  exact .ok ⟨h.withProposed hg n, rfl⟩

theorem commit (h : BothForms t t') : Checked.Agree BothForms (t.commit n) (t'.commit n) := by
  rw [GeometryTable.commit, GeometryTable.commit, h.proposedOf]
  exact .bind_same fun g hg => .ok (h.withCommitted (h.oneLayer_proposedOf hg) n)

/-! ### Measures -/

variable {α : Type} [CostScalar α] {R : α → α → Prop}

/-- A geometry of the tables costs the same in either form. -/
theorem agree_cost (h : BothForms t t') (hsums : PlainSums R) {g : Geometry} (hg : g.OneLayer)
    (factors : ChannelFactors α) :
    Checked.Agree R (g.cost t.form factors) (g.cost t'.form factors) := by
  rw [h.form, h.form']
  exact hg.agree_measure hsums _

theorem committedCost (h : BothForms t t') (hsums : PlainSums R) (factors : ChannelFactors α)
    (n : NetId) :
    Checked.Agree R (t.committedCost factors n) (t'.committedCost factors n) := by
  rw [GeometryTable.committedCost, GeometryTable.committedCost, h.committedOf]
  exact .bind_same fun g hg => h.agree_cost hsums (h.oneLayer_committedOf hg) factors

theorem committedLength (h : BothForms t t') (hsums : PlainSums R) (n : NetId) :
    Checked.Agree R (t.committedLength n : Checked α) (t'.committedLength n) := by
  rw [GeometryTable.committedLength, GeometryTable.committedLength, h.committedOf]
  refine .bind_same fun g hg => ?_
  rw [Geometry.wirelength, Geometry.wirelength, h.form, h.form']
  exact (h.oneLayer_committedOf hg).agree_measure hsums _

end BothForms

end GeometryTable

end WireCost
