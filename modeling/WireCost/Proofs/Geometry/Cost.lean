import WireCost.Engine.Evaluate
import WireCost.Proofs.ChannelFactors
import WireCost.Proofs.Device
import WireCost.Proofs.Netlist.Sites

/-! # Exact geometries can be costed

* **`Interior.Encloses`** — all sites of a net are in the interior.
* **`EdgeBox.IsWithin`** — a box lies in the interior; **`Geometry.Measures.isWithin`** says so of
  the boxes of an exact geometry.
* **`Geometry.Measures.exists_cost`**, **`Geometry.Measures.exists_wirelength`** — the cost and the
  wirelength of an exact geometry never fail.
* **`Geometry.Passes`** — what the check of proposals and the lookup of factors ask of a geometry.
* **`Engine.checkProposed_of_measures`** — an exact geometry passes the check of proposals. -/

namespace WireCost

variable {α : Type}

/-! ## Factors for an interior -/

/-- The factors are given for all channels along the interior, whose lines can be told by words. -/
structure ChannelFactors.Cover (f : ChannelFactors α) (i : Interior) : Prop where
  x : f.x.IsFull
  y : f.y.IsFull
  rows : i.rows < f.x.size
  columns : i.columns < f.y.size
  rowsWord : Word.IsInt32 i.rows
  columnsWord : Word.IsInt32 i.columns

/-- **The factors of a device cover its interior.** -/
theorem ChannelFactors.cover_ofDevice [CostScalar α] {d : Device} {exponent : α}
    {f : ChannelFactors α} {bare : List BareSpan} {i : Interior}
    (hi : Interior.ofDevice d = .ok (.ok i)) (h : ofDevice d exponent = .ok (f, bare)) :
    f.Cover i := by
  obtain ⟨⟨hx, hheight⟩, hy, hwidth⟩ := isFull_ofDevice h
  obtain ⟨-, -, -, hcolumns, hrows, -⟩ := Interior.ofDevice_eq_ok.1 hi
  obtain ⟨hcolumns, hcolumnsWord⟩ := Interior.lastLine_lt hcolumns
  obtain ⟨hrows, hrowsWord⟩ := Interior.lastLine_lt hrows
  exact ⟨hx, hy, by rwa [hheight], by rwa [hwidth], hrowsWord, hcolumnsWord⟩

/-- **The interior of a device** whose factors can be told has a column and a row. -/
theorem ChannelFactors.isOpen_of_ofDevice [CostScalar α] {d : Device} {exponent : α}
    {f : ChannelFactors α} {bare : List BareSpan} {i : Interior}
    (hi : Interior.ofDevice d = .ok (.ok i)) (h : ofDevice d exponent = .ok (f, bare)) :
    i.IsOpen := by
  obtain ⟨hwidth, hheight, hlayers, -⟩ := Interior.ofDevice_eq_ok.1 hi
  obtain ⟨hrows, hcolumns, -⟩ := ofDevice_eq_ok.1 h
  -- there is room for the tables of the factors, so the sides of the device are words
  obtain ⟨i', hi', hopen, -⟩ := Interior.exists_ofDevice hwidth (lt_of_requireRoom hcolumns) hheight
    (lt_of_requireRoom hrows) hlayers
  cases hi.symm.trans hi'
  exact hopen

/-! ## Boxes in the interior -/

/-- A span lies on the lines `1..=last`. -/
structure Span.IsWithin (s : Span) (last : Int) : Prop where
  low : 1 ≤ s.low.line
  order : s.low.line ≤ s.high.line
  high : s.high.line ≤ last

/-- A box lies in the interior. -/
structure EdgeBox.IsWithin (b : EdgeBox) (i : Interior) : Prop where
  x : b.x.IsWithin i.columns
  y : b.y.IsWithin i.rows

namespace Span

variable {s : Span} {xs : Multiset Int} {last : Int}

/-- An exact span lies where its points lie. -/
theorem Measures.isWithin (h : s.Measures xs) (hxs : ∀ x ∈ xs, 1 ≤ x ∧ x ≤ last) :
    s.IsWithin last where
  low := (hxs _ h.low.mem).1
  order := h.low.first _ h.high.mem
  high := (hxs _ h.high.mem).2

theorem IsWithin.exists_lines (h : s.IsWithin last) (hlast : Word.IsInt32 last) :
    ∃ n, s.lines = .ok n := by
  have hlow := h.low
  have horder := h.order
  have hhigh := h.high
  have hlength : Word.IsInt32 (s.high.line - s.low.line) := by
    unfold Word.IsInt32 at hlast ⊢
    omega
  have hcount : Word.IsInt32 (s.high.line - s.low.line + 1) := by
    unfold Word.IsInt32 at hlast ⊢
    omega
  exact ⟨_, by rw [lines, Word.int32_of_isInt32 hlength, Checked.ok_bind,
    Word.int32_of_isInt32 hcount]⟩

/-- The factor beside a span stands in a table. -/
def IsListed (s : Span) (t : SpanTable α) : Prop :=
  Word.asNat64 (s.low.line - 1) ≤ Word.asNat64 s.high.line ∧ Word.asNat64 s.high.line < t.size

/-- So it does if the channels reach as far as the interior. -/
theorem IsWithin.isListed {t : SpanTable α} (h : s.IsWithin last) (hsize : last < t.size)
    (hlast : Word.IsInt32 last) : s.IsListed t := by
  have hlow := h.low
  have horder := h.order
  have hhigh := h.high
  unfold Word.IsInt32 at hlast
  simp only [IsListed, Word.asNat64, Word.size64]
  omega

/-- **The factor beside a span** is found if the channels reach as far as the interior. -/
theorem IsWithin.exists_factor {t : SpanTable α} (h : s.IsWithin last) (ht : t.IsFull)
    (hsize : last < t.size) (hlast : Word.IsInt32 last) : ∃ v, s.factor t = .ok v := by
  have hlow := h.low
  have horder := h.order
  have hhigh := h.high
  have hbefore : Word.IsInt32 (s.low.line - 1) := by
    unfold Word.IsInt32 at hlast ⊢
    omega
  obtain ⟨hordered, hinside⟩ := h.isListed hsize hlast
  obtain ⟨v, hv⟩ := SpanTable.exists_get ht hordered hinside
  exact ⟨v, by rw [factor, Word.int32_of_isInt32 hbefore, Checked.ok_bind, hv]⟩

end Span

/-- **A box in the interior** can be costed. -/
theorem EdgeBox.IsWithin.exists_boxCost [CostScalar α] {f : ChannelFactors α} {i : Interior}
    {b : EdgeBox} (h : b.IsWithin i) (hf : f.Cover i) (pins : Nat) :
    ∃ cost, boxCost f b pins = .ok cost := by
  obtain ⟨xspan, hxspan⟩ := h.x.exists_lines hf.columnsWord
  obtain ⟨yspan, hyspan⟩ := h.y.exists_lines hf.rowsWord
  obtain ⟨xfactor, hxfactor⟩ := h.y.exists_factor hf.x hf.rows hf.rowsWord
  obtain ⟨yfactor, hyfactor⟩ := h.x.exists_factor hf.y hf.columns hf.columnsWord
  exact ⟨_, by rw [boxCost, hxspan, hyspan, hxfactor, hyfactor]; rfl⟩

/-- A box in the interior has a length. -/
theorem EdgeBox.IsWithin.exists_boxLength [CostScalar α] {i : Interior} {b : EdgeBox}
    (h : b.IsWithin i) (hcolumns : Word.IsInt32 i.columns) (hrows : Word.IsInt32 i.rows)
    (pins : Nat) : ∃ length : α, boxLength b pins = .ok length := by
  obtain ⟨xspan, hxspan⟩ := h.x.exists_lines hcolumns
  obtain ⟨yspan, hyspan⟩ := h.y.exists_lines hrows
  exact ⟨_, by rw [boxLength, hxspan, hyspan]; rfl⟩

/-! ## Geometries in the interior -/

/-- All sites of a net are in the interior. -/
structure Interior.Encloses (i : Interior) (b : SiteBag) : Prop where
  driver : i.HasSite b.driver
  sinks : ∀ s ∈ b.sinks, i.HasSite s

/-- A net whose pins have sites is enclosed. -/
theorem Netlist.Sited.encloses {nl : Netlist} {i : Interior} {net : Net} {driver : PinId}
    (h : nl.Sited i net driver) : i.Encloses (net.bagAt driver (nl.siteMap i)) where
  driver := hasSite_of_siteIn (h driver List.mem_cons_self)
  sinks := by
    intro s hs
    obtain ⟨p, hp, rfl⟩ := List.mem_map.1 (Multiset.mem_coe.1 hs)
    exact hasSite_of_siteIn (h p (List.mem_cons_of_mem driver hp))

namespace Geometry.Measures

variable {form : BoxForm} {layers : Nat} {g : Geometry} {b : SiteBag} {i : Interior}

/-- The boxes of an exact geometry lie in the interior. -/
theorem isWithin (h : g.Measures form layers b) (hi : i.Encloses b) {box : EdgeBox}
    (hbox : box ∈ g.boxes) : box.IsWithin i := by
  obtain ⟨k, hk⟩ := List.getElem?_of_mem hbox
  have hmeasures := h.boxes.box k box hk
  -- every point of the box is the place of a site
  have hpoints : ∀ q ∈ b.points form k, (1 ≤ q.1 ∧ q.1 ≤ i.columns) ∧ 1 ≤ q.2 ∧ q.2 ≤ i.rows := by
    intro q hq
    obtain rfl | hq := Multiset.mem_cons.1 hq
    · exact ⟨hi.driver.column, hi.driver.row⟩
    · obtain ⟨s, hs, rfl⟩ := Multiset.mem_map.1 hq
      have hsite := hi.sinks s (Multiset.mem_of_mem_filter hs)
      exact ⟨hsite.column, hsite.row⟩
  refine ⟨hmeasures.x.isWithin fun x hx => ?_, hmeasures.y.isWithin fun y hy => ?_⟩
  · obtain ⟨q, hq, rfl⟩ := Multiset.mem_map.1 hx
    exact (hpoints q hq).1
  · obtain ⟨q, hq, rfl⟩ := Multiset.mem_map.1 hy
    exact (hpoints q hq).2

/-- No box of an exact geometry has an edge without pins. -/
theorem hasBareEdge (h : g.Measures form layers b) {box : EdgeBox} (hbox : box ∈ g.boxes) :
    box.hasBareEdge = false := by
  obtain ⟨k, hk⟩ := List.getElem?_of_mem hbox
  have hmeasures := h.boxes.box k box hk
  have hxlow := hmeasures.x.low.pins_pos
  have hxhigh := hmeasures.x.high.pins_pos
  have hylow := hmeasures.y.low.pins_pos
  have hyhigh := hmeasures.y.high.pins_pos
  simp only [EdgeBox.hasBareEdge, Bool.or_eq_false_iff, decide_eq_false_iff_not]
  omega

/-- No sink count of an exact geometry is negative. -/
theorem sinks_nonneg (h : g.Measures form layers b) : ∀ n ∈ g.sinks, 0 ≤ n := by
  rw [h.sinkCounts]
  intro n hn
  obtain ⟨l, -, rfl⟩ := List.mem_map.1 hn
  exact Int.natCast_nonneg _

/-- **An exact geometry can be measured** if its boxes can. -/
theorem exists_measure [CostScalar α] {ofBox : EdgeBox → Nat → Checked α}
    (h : g.Measures form layers b) (hl : layers ≤ Word.size64)
    (room : b.sinks.card + 1 < Word.size32)
    (hbox : ∀ box ∈ g.boxes, ∀ pins, ∃ v, ofBox box pins = .ok v) :
    ∃ v, g.measure form ofBox = .ok v := by
  cases form with
  | cube =>
    rw [measure]
    -- one box over all pins, measured with the number of its sinks
    have htotal := h.sinkTotal hl (by simp only [Word.size32, Word.size64] at *; omega)
    rw [htotal, Checked.ok_bind]
    split
    · exact ⟨zero, rfl⟩
    · have hlt : 0 < g.boxes.length := by
        rw [h.boxes.length]
        exact Nat.zero_lt_one
      have hpins : Word.nat64 (b.sinks.card + 1) = .ok (b.sinks.card + 1) :=
        Word.nat64_eq_ok.2 ⟨by simp only [Word.size32, Word.size64] at *; omega, rfl⟩
      obtain ⟨v, hv⟩ := hbox _ (List.getElem_mem hlt) (b.sinks.card + 1)
      exact ⟨v, by rw [entry_of_some (List.getElem?_eq_getElem hlt), Checked.ok_bind, hpins,
        Checked.ok_bind, hv]⟩
  | perLayer =>
    rw [measure]
    -- a sum over the layers that have sinks
    obtain ⟨terms, hterms⟩ := Checked.exists_mapM
      (f := fun t : EdgeBox × Int => ofBox t.1 (t.2.toNat + 1))
      (l := (g.boxes.zip g.sinks).filter (0 < ·.2)) fun t ht =>
        hbox t.1 (List.of_mem_zip (List.mem_of_mem_filter ht)).1 (t.2.toNat + 1)
    exact ⟨_, by rw [hterms]; rfl⟩

/-- **An exact geometry can be costed.** -/
theorem exists_cost [CostScalar α] {f : ChannelFactors α} (h : g.Measures form layers b)
    (hl : layers ≤ Word.size64) (hi : i.Encloses b) (hf : f.Cover i)
    (room : b.sinks.card + 1 < Word.size32) : ∃ cost, g.cost form f = .ok cost :=
  h.exists_measure hl room fun _ hbox => (h.isWithin hi hbox).exists_boxCost hf

/-- An exact geometry has a wirelength. -/
theorem exists_wirelength [CostScalar α] (h : g.Measures form layers b)
    (hl : layers ≤ Word.size64) (hi : i.Encloses b) (hcolumns : Word.IsInt32 i.columns)
    (hrows : Word.IsInt32 i.rows) (room : b.sinks.card + 1 < Word.size32) :
    ∃ length : α, g.wirelength form = .ok length :=
  h.exists_measure hl room fun _ hbox => (h.isWithin hi hbox).exists_boxLength hcolumns hrows

end Geometry.Measures

/-- **A geometry that passes:** its boxes lie in the interior, their edges have pins, the factors
beside them are listed, and no sink count is negative. -/
structure Geometry.Passes (g : Geometry) (i : Interior) (f : ChannelFactors α) : Prop where
  inside : ∀ box ∈ g.boxes, box.IsWithin i
  edges : ∀ box ∈ g.boxes, box.hasBareEdge = false
  factors : ∀ box ∈ g.boxes, box.y.IsListed f.x ∧ box.x.IsListed f.y
  sinks : ∀ n ∈ g.sinks, 0 ≤ n

/-- **An exact geometry passes** in an interior that the factors cover. -/
theorem Geometry.Measures.passes {form : BoxForm} {layers : Nat} {g : Geometry} {b : SiteBag}
    {i : Interior} {f : ChannelFactors α} (h : g.Measures form layers b) (hi : i.Encloses b)
    (hf : f.Cover i) : g.Passes i f where
  inside _ hbox := h.isWithin hi hbox
  edges _ hbox := h.hasBareEdge hbox
  factors _ hbox :=
    have hin := h.isWithin hi hbox
    ⟨hin.y.isListed hf.rows hf.rowsWord, hin.x.isListed hf.columns hf.columnsWord⟩
  sinks := h.sinks_nonneg

/-- **An exact geometry passes the check of proposals.** -/
theorem Engine.checkProposed_of_measures {δ : Type} {e : Engine δ α} {form : BoxForm}
    {layers : Nat} {g : Geometry} {b : SiteBag} (h : g.Measures form layers b)
    (hi : e.interior.Encloses b) (n : NetId) : e.checkProposed n g = .ok () := by
  -- induction on the boxes still to be checked
  have hboxes : ∀ boxes : List EdgeBox, (∀ box ∈ boxes, box ∈ g.boxes) →
      boxes.forM (fun box => do
        require (e.interior.containsBox box) (.boxOutsideInterior n.toNat box)
        require (¬ box.hasBareEdge) (.boxWithBareEdge n.toNat box)) = .ok () := by
    intro boxes
    induction boxes with
    | nil => exact fun _ => rfl
    | cons box boxes ih =>
      intro hsub
      have hin := h.isWithin hi (hsub box List.mem_cons_self)
      have hcontains : e.interior.containsBox box = true := by
        simp [Interior.containsBox, Interior.contains, hin.x.low, hin.x.order, hin.x.high,
          hin.y.low, hin.y.order, hin.y.high]
      have hbare : ¬ box.hasBareEdge = true := by
        simp [h.hasBareEdge (hsub box List.mem_cons_self)]
      rw [List.forM, require_of hcontains, Checked.ok_bind, require_of hbare, Checked.ok_bind]
      exact ih fun box' hbox' => hsub box' (List.mem_cons_of_mem box hbox')
  rw [checkProposed, hboxes g.boxes fun _ hbox => hbox, Checked.ok_bind, require_of h.sinks_nonneg]

end WireCost
