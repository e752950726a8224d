import WireCost.Geometry.Store
import WireCost.Proofs.Netlist.Consistent

/-! # Geometries side by side

A buffer holds the geometries of all nets in two arrays. The parts of two nets never meet, so a
buffer is as good as one geometry for each net.

* **`slice_overwrite`**, **`slice_overwrite_of_disjoint`**, **`overwrite_comm`** — a part of an
  array that is written, and another one.
* **`NetId.parts_disjoint`** — the parts of two nets, at any stride.
* **`Geometry.HasShape`** — a geometry that fills the parts of a net. Scans give such geometries,
  and a pin that moves keeps them so.
* **`GeometryBuffer.read_put`**, **`GeometryBuffer.read_put_of_ne`**, **`GeometryBuffer.put_read`**,
  **`GeometryBuffer.put_put`**, **`GeometryBuffer.put_comm`** — replacing the geometry of a net. -/

namespace WireCost

/-! ## Parts of an array -/

section

variable {value : Type} {xs : Array value} {first first' count : Nat} {ys ys' : List value}

@[simp] theorem size_overwrite (xs : Array value) (first : Nat) (ys : List value) :
    (overwrite xs first ys).size = xs.size := by
  induction ys generalizing xs first with
  | nil => rfl
  | cons y ys ih => rw [overwrite, ih, Array.size_setIfInBounds]

/-- **What stands in an array** of which a part was written. -/
theorem getElem?_overwrite (xs : Array value) (first : Nat) (ys : List value) (i : Nat) :
    (overwrite xs first ys)[i]? =
      if first ≤ i ∧ i < first + ys.length ∧ i < xs.size then ys[i - first]? else xs[i]? := by
  induction ys generalizing xs first with
  | nil => rw [overwrite, if_neg (by simp; omega)]
  | cons y ys ih =>
    rw [overwrite, ih, Array.size_setIfInBounds, List.length_cons]
    rcases Nat.lt_trichotomy i first with hlt | rfl | hgt
    · rw [if_neg (by omega), if_neg (by omega), Array.getElem?_setIfInBounds_ne (Nat.ne_of_gt hlt)]
    · rw [if_neg (by omega)]
      by_cases hi : i < xs.size
      · rw [if_pos (by omega), Array.getElem?_setIfInBounds_self_of_lt hi, Nat.sub_self]
        rfl
      · rw [if_neg (by omega), Array.setIfInBounds_eq_of_size_le (Nat.not_lt.1 hi)]
    · rw [Array.getElem?_setIfInBounds_ne (Nat.ne_of_lt hgt),
        show i - first = i - (first + 1) + 1 by omega, List.getElem?_cons_succ]
      exact if_congr (by omega) rfl rfl

theorem slice_eq_ok : slice xs first count = .ok ys ↔
    first + count ≤ xs.size ∧ (xs.extract first (first + count)).toList = ys := by
  simp only [slice, Checked.bind_eq_ok, require_eq_ok, Except.ok.injEq]
  exact ⟨fun ⟨_, hfits, h⟩ => ⟨hfits, h⟩, fun ⟨hfits, h⟩ => ⟨(), hfits, h⟩⟩

/-- The items of a part. -/
theorem getElem?_of_slice (h : slice xs first count = .ok ys) (i : Nat) :
    ys[i]? = if i < count then xs[first + i]? else none := by
  obtain ⟨hfits, rfl⟩ := slice_eq_ok.1 h
  rw [Array.getElem?_toList, Array.getElem?_extract]
  exact if_congr (by omega) rfl rfl

theorem length_of_slice (h : slice xs first count = .ok ys) : ys.length = count := by
  obtain ⟨hfits, rfl⟩ := slice_eq_ok.1 h
  rw [Array.length_toList, Array.size_extract]
  omega

/-- **A part that is written** reads as what was written. -/
theorem slice_overwrite (hfits : first + ys.length ≤ xs.size) :
    slice (overwrite xs first ys) first ys.length = .ok ys := by
  refine slice_eq_ok.2 ⟨by rwa [size_overwrite], List.ext_getElem? fun i => ?_⟩
  rw [Array.getElem?_toList, Array.getElem?_extract, size_overwrite]
  by_cases hi : i < ys.length
  · rw [if_pos (by omega), getElem?_overwrite, if_pos (by omega), Nat.add_sub_cancel_left]
  · rw [if_neg (by omega), List.getElem?_eq_none (Nat.not_lt.1 hi)]

/-- **A part that does not meet** the one that is written reads as before. -/
theorem slice_overwrite_of_disjoint
    (h : first + ys.length ≤ first' ∨ first' + count ≤ first) :
    slice (overwrite xs first ys) first' count = slice xs first' count := by
  rw [slice, slice, size_overwrite]
  refine congrArg _ (funext fun _ => congrArg _ (List.ext_getElem? fun i => ?_))
  rw [Array.getElem?_toList, Array.getElem?_toList, Array.getElem?_extract,
    Array.getElem?_extract, size_overwrite]
  split
  · rw [getElem?_overwrite, if_neg (by omega)]
  · rfl

/-- Writing what stands there changes nothing. -/
theorem overwrite_of_slice (h : slice xs first count = .ok ys) : overwrite xs first ys = xs := by
  refine Array.ext_getElem? fun i => ?_
  rw [getElem?_overwrite, length_of_slice h]
  split
  · rw [getElem?_of_slice h, if_pos (by omega), Nat.add_sub_cancel' (by omega)]
  · rfl

/-- The last one that is written to a part counts. -/
theorem overwrite_overwrite (h : ys.length = ys'.length) :
    overwrite (overwrite xs first ys) first ys' = overwrite xs first ys' := by
  refine Array.ext_getElem? fun i => ?_
  rw [getElem?_overwrite, getElem?_overwrite, getElem?_overwrite, size_overwrite, h]
  split
  · rfl
  · rfl

/-- **Parts that do not meet** can be written in either order. -/
theorem overwrite_comm (h : first + ys.length ≤ first' ∨ first' + ys'.length ≤ first) :
    overwrite (overwrite xs first ys) first' ys' =
      overwrite (overwrite xs first' ys') first ys := by
  refine Array.ext_getElem? fun i => ?_
  simp only [getElem?_overwrite, size_overwrite]
  split
  · rw [if_neg (by omega)]
  · rfl

end

/-! ## The parts of a net -/

section

variable {n m : NetId} {nets stride : Nat}

/-- The parts of a net lie in the array. -/
theorem NetId.part_le (hn : n.toNat < nets) (stride : Nat) :
    n.toNat * stride + stride ≤ nets * stride := by
  rw [← Nat.succ_mul]
  exact Nat.mul_le_mul_right stride hn

/-- Where the part of a net starts. -/
theorem NetId.firstOf_eq (hn : n.toNat < nets) (hroom : nets * stride < Word.size64) :
    n.firstOf stride = .ok (n.toNat * stride) := by
  have hfits := NetId.part_le hn stride
  rw [firstOf, Word.nat64_eq_ok.2 ⟨by omega, rfl⟩, Checked.ok_bind,
    Word.nat64_eq_ok.2 ⟨by omega, rfl⟩, Checked.ok_bind]

theorem NetId.eq_of_firstOf {first : Nat} (h : n.firstOf stride = .ok first) :
    n.toNat * stride = first := by
  simp only [firstOf, Checked.bind_eq_ok, Word.nat64_eq_ok, Except.ok.injEq] at h
  obtain ⟨_, ⟨-, rfl⟩, -, -, h⟩ := h
  exact h

/-- What follows the start of a part has to agree there only. -/
theorem NetId.firstOf_bind_congr {α : Type} {f f' : Nat → Checked α}
    (h : f (n.toNat * stride) = f' (n.toNat * stride)) :
    n.firstOf stride >>= f = n.firstOf stride >>= f' := by
  cases hfirst : n.firstOf stride with
  | error fault => rfl
  | ok first =>
    obtain rfl := NetId.eq_of_firstOf hfirst
    exact h

/-- **The parts of two nets do not meet.** -/
theorem NetId.parts_disjoint (h : n ≠ m) (stride : Nat) :
    n.toNat * stride + stride ≤ m.toNat * stride ∨
      m.toNat * stride + stride ≤ n.toNat * stride := by
  simp only [← Nat.succ_mul]
  rcases Nat.lt_or_gt_of_ne (mt NetId.toNat_inj.1 h) with hlt | hlt
  · exact .inl (Nat.mul_le_mul_right stride hlt)
  · exact .inr (Nat.mul_le_mul_right stride hlt)

end

/-! ## Geometries that fill their parts -/

namespace Geometry

variable {form : BoxForm} {layers : Nat} {g g' : Geometry} {p : PinShift}

/-- **A geometry fills the parts of a net:** it has the boxes of its form, and a sink count for
every layer. -/
structure HasShape (form : BoxForm) (layers : Nat) (g : Geometry) : Prop where
  boxes : g.boxes.length = form.boxCount layers
  sinks : g.sinks.length = layers

theorem length_change {α : Type} {xs ys : List α} {i : Nat} {f : α → Checked α}
    (h : change xs i f = .ok ys) : ys.length = xs.length := by
  obtain ⟨x, y, -, -, rfl⟩ := change_eq_ok.1 h
  exact List.length_set

/-- A sink that joins keeps the shape. -/
theorem HasShape.addSink (h : g.HasShape form layers) {s : Site}
    (hadd : Geometry.addSink form g s = .ok g') : g'.HasShape form layers := by
  simp only [Geometry.addSink, Checked.bind_eq_ok, Except.ok.injEq] at hadd
  obtain ⟨boxes, hboxes, sinks, hsinks, rfl⟩ := hadd
  exact ⟨(length_change hboxes).trans h.boxes, (length_change hsinks).trans h.sinks⟩

/-- **What is scanned** has the shape that was asked for. -/
theorem hasShape_of_scan {sites : NetSites} (h : scan form layers sites = .ok g) :
    g.HasShape form layers :=
  Checked.foldlM_induct (fun _ g => g.HasShape form layers)
    ⟨List.length_replicate, List.length_replicate⟩
    (fun _ _ _ _ _ _ hg hadd => hg.addSink hadd) h

theorem length_of_shiftBox? {boxes boxes' : List EdgeBox} {i : Nat}
    (h : shiftBox? boxes i p = .ok (some boxes')) : boxes'.length = boxes.length := by
  simp only [shiftBox?, Checked.bind_eq_ok] at h
  obtain ⟨box, -, moved, -, h⟩ := h
  split at h
  · cases h
  · cases h
    exact List.length_set

/-- A driver that moves keeps the number of boxes, wherever it has to stop. -/
theorem length_of_shiftDriver {l : List (EdgeBox × Int)} {boxes : List EdgeBox} {followed : Bool}
    (h : shiftDriver p l = .ok (boxes, followed)) : boxes.length = l.length := by
  induction l generalizing boxes followed with
  | nil =>
    cases h
    rfl
  | cons head rest ih =>
    rw [shiftDriver, ← Checked.ite_bind] at h
    obtain ⟨moved, -, h⟩ := Checked.bind_eq_ok.1 h
    cases moved with
    | none =>
      cases h
      rw [List.length_cons, List.length_cons, List.length_map]
    | some box =>
      obtain ⟨⟨boxes', followed'⟩, hrest, h⟩ := Checked.bind_eq_ok.1 h
      cases h
      rw [List.length_cons, List.length_cons, ih hrest]

theorem HasShape.shiftCube? (h : g.HasShape form layers)
    (hmove : g.shiftCube? p = .ok (some g')) : g'.HasShape form layers := by
  rw [Geometry.shiftCube?, ← Checked.ite_bind] at hmove
  obtain ⟨alone, -, hmove⟩ := Checked.bind_eq_ok.1 hmove
  dsimp only at hmove
  split at hmove
  · cases hmove
    exact ⟨List.length_set.trans h.boxes, h.sinks⟩
  · obtain ⟨moved, hbox, hmove⟩ := Checked.bind_eq_ok.1 hmove
    split at hmove
    · cases hmove
    · have hboxes := (length_of_shiftBox? hbox).trans h.boxes
      split at hmove
      · simp only [Checked.bind_eq_ok, Except.ok.injEq, Option.some.injEq] at hmove
        obtain ⟨fewer, hfewer, sinks, hsinks, rfl⟩ := hmove
        exact ⟨hboxes, (length_change hsinks).trans ((length_change hfewer).trans h.sinks)⟩
      · cases hmove
        exact ⟨hboxes, h.sinks⟩

/-- A sink that moves under the per-layer form keeps the shape. -/
theorem HasShape.shiftPerLayer? (h : g.HasShape form layers) (hsink : ¬ p.drives = true)
    (hmove : g.shiftPerLayer? p = .ok (some g')) : g'.HasShape form layers := by
  rw [Geometry.shiftPerLayer?, if_neg hsink] at hmove
  split at hmove
  · obtain ⟨moved, hbox, hmove⟩ := Checked.bind_eq_ok.1 hmove
    split at hmove
    · cases hmove
    · cases hmove
      exact ⟨(length_of_shiftBox? hbox).trans h.boxes, h.sinks⟩
  · simp only [Checked.bind_eq_ok] at hmove
    obtain ⟨box, -, left, -, hmove⟩ := hmove
    split at hmove
    · cases hmove
    · simp only [Checked.bind_eq_ok, Except.ok.injEq, Option.some.injEq] at hmove
      obtain ⟨boxes, hboxes, fewer, hfewer, sinks, hsinks, rfl⟩ := hmove
      exact ⟨(length_change hboxes).trans (List.length_set.trans h.boxes),
        (length_change hsinks).trans ((length_change hfewer).trans h.sinks)⟩

/-- **A pin that moves** keeps the shape, whether the geometry can follow or not. -/
theorem HasShape.shift (h : g.HasShape form layers) {followed : Bool}
    (hmove : g.shift form p = .ok (g', followed)) : g'.HasShape form layers := by
  rw [Geometry.shift] at hmove
  split at hmove
  · -- a driver has a box and a sink count for every layer
    rename_i hdriver
    obtain ⟨⟨boxes, followed'⟩, hboxes, hmove⟩ := Checked.bind_eq_ok.1 hmove
    cases hmove
    have hlayers : g.boxes.length = layers := h.boxes.trans (by rw [hdriver.1]; rfl)
    refine ⟨(length_of_shiftDriver hboxes).trans ?_, h.sinks⟩
    rw [List.length_zip, h.sinks, h.boxes.symm, hlayers, Nat.min_self]
  · rename_i hother
    obtain ⟨moved, hmoved, hmove⟩ := Checked.bind_eq_ok.1 hmove
    split at hmove
    · cases hmove
      exact h
    · cases hmove
      cases form with
      | cube => exact h.shiftCube? hmoved
      | perLayer => exact h.shiftPerLayer? (fun hdrives => hother ⟨rfl, hdrives⟩) hmoved

end Geometry

/-! ## Buffers -/

namespace GeometryBuffer

variable {form : BoxForm} {nets layers : Nat} {b b' : GeometryBuffer} {n m : NetId}
  {g g' : Geometry}

/-- **A buffer for some nets:** it has the boxes and the sink counts of each, and they can be
numbered. -/
structure IsFor (form : BoxForm) (nets layers : Nat) (b : GeometryBuffer) : Prop where
  boxes : b.boxes.size = nets * form.boxCount layers
  sinks : b.sinks.size = nets * layers
  boxRoom : nets * form.boxCount layers < Word.size64
  sinkRoom : nets * layers < Word.size64

/-- A buffer with another geometry of one net. -/
def put (form : BoxForm) (layers : Nat) (b : GeometryBuffer) (n : NetId) (g : Geometry) :
    GeometryBuffer :=
  ⟨overwrite b.boxes (n.toNat * form.boxCount layers) g.boxes,
    overwrite b.sinks (n.toNat * layers) g.sinks⟩

/-- What is read from the parts of a net. -/
theorem read_eq_ok : b.read form layers n = .ok g ↔
    n.firstOf (form.boxCount layers) = .ok (n.toNat * form.boxCount layers) ∧
      slice b.boxes (n.toNat * form.boxCount layers) (form.boxCount layers) = .ok g.boxes ∧
      n.firstOf layers = .ok (n.toNat * layers) ∧
      slice b.sinks (n.toNat * layers) layers = .ok g.sinks := by
  simp only [read, Checked.bind_eq_ok, Except.ok.injEq]
  constructor
  · rintro ⟨firstBox, hfirstBox, boxes, hboxes, firstSink, hfirstSink, sinks, hsinks, rfl⟩
    obtain rfl := NetId.eq_of_firstOf hfirstBox
    obtain rfl := NetId.eq_of_firstOf hfirstSink
    exact ⟨hfirstBox, hboxes, hfirstSink, hsinks⟩
  · rintro ⟨hfirstBox, hboxes, hfirstSink, hsinks⟩
    exact ⟨_, hfirstBox, _, hboxes, _, hfirstSink, _, hsinks, rfl⟩

/-- What is read fills the parts of a net. -/
theorem hasShape_of_read (h : b.read form layers n = .ok g) : g.HasShape form layers := by
  obtain ⟨-, hboxes, -, hsinks⟩ := read_eq_ok.1 h
  exact ⟨length_of_slice hboxes, length_of_slice hsinks⟩

/-- **Writing what stands there** changes nothing. -/
theorem put_read (h : b.read form layers n = .ok g) : b.put form layers n g = b := by
  obtain ⟨-, hboxes, -, hsinks⟩ := read_eq_ok.1 h
  rw [put, overwrite_of_slice hboxes, overwrite_of_slice hsinks]

/-- **The last geometry** that is written counts. -/
theorem put_put (hg : g.HasShape form layers) (hg' : g'.HasShape form layers) :
    (b.put form layers n g).put form layers n g' = b.put form layers n g' := by
  rw [put, put, put, overwrite_overwrite (hg.boxes.trans hg'.boxes.symm),
    overwrite_overwrite (hg.sinks.trans hg'.sinks.symm)]

/-- **Two nets** can be written in either order. -/
theorem put_comm (h : n ≠ m) (hg : g.HasShape form layers) (hg' : g'.HasShape form layers) :
    (b.put form layers n g).put form layers m g' =
      (b.put form layers m g').put form layers n g := by
  refine congrArg₂ mk (overwrite_comm ?_) (overwrite_comm ?_)
  · rw [hg.boxes, hg'.boxes]
    exact NetId.parts_disjoint h _
  · rw [hg.sinks, hg'.sinks]
    exact NetId.parts_disjoint h _

/-- **Another net** reads as before. -/
theorem read_put_of_ne (h : n ≠ m) (hg : g.HasShape form layers) :
    (b.put form layers n g).read form layers m = b.read form layers m := by
  have hboxes : slice (b.put form layers n g).boxes (m.toNat * form.boxCount layers)
      (form.boxCount layers) =
        slice b.boxes (m.toNat * form.boxCount layers) (form.boxCount layers) := by
    refine slice_overwrite_of_disjoint ?_
    rw [hg.boxes]
    exact NetId.parts_disjoint h _
  have hsinks : slice (b.put form layers n g).sinks (m.toNat * layers) layers =
      slice b.sinks (m.toNat * layers) layers := by
    refine slice_overwrite_of_disjoint ?_
    rw [hg.sinks]
    exact NetId.parts_disjoint h _
  refine NetId.firstOf_bind_congr ?_
  rw [hboxes]
  exact congrArg _ (funext fun _ => NetId.firstOf_bind_congr (by rw [hsinks]))

namespace IsFor

theorem put (h : b.IsFor form nets layers) (n : NetId) (g : Geometry) :
    (b.put form layers n g).IsFor form nets layers :=
  ⟨(size_overwrite _ _ _).trans h.boxes, (size_overwrite _ _ _).trans h.sinks, h.boxRoom,
    h.sinkRoom⟩

theorem blank (hboxes : nets * form.boxCount layers < Word.size64)
    (hsinks : nets * layers < Word.size64) :
    (GeometryBuffer.blank form nets layers).IsFor form nets layers :=
  ⟨Array.size_replicate, Array.size_replicate, hboxes, hsinks⟩

/-- A net has a geometry. -/
theorem exists_read (h : b.IsFor form nets layers) (hn : n.toNat < nets) :
    ∃ g, b.read form layers n = .ok g := by
  have hboxes : n.toNat * form.boxCount layers + form.boxCount layers ≤ b.boxes.size :=
    h.boxes ▸ NetId.part_le hn _
  have hsinks : n.toNat * layers + layers ≤ b.sinks.size :=
    h.sinks ▸ NetId.part_le hn _
  exact ⟨⟨_, _⟩, read_eq_ok.2 ⟨NetId.firstOf_eq hn h.boxRoom, slice_eq_ok.2 ⟨hboxes, rfl⟩,
    NetId.firstOf_eq hn h.sinkRoom, slice_eq_ok.2 ⟨hsinks, rfl⟩⟩⟩

/-- **The geometry of a net** can be replaced. -/
theorem write_eq (h : b.IsFor form nets layers) (hn : n.toNat < nets) (g : Geometry) :
    b.write form layers n g = .ok (b.put form layers n g) := by
  rw [write, NetId.firstOf_eq hn h.boxRoom, Checked.ok_bind, NetId.firstOf_eq hn h.sinkRoom,
    Checked.ok_bind, GeometryBuffer.put]

/-- A net that has not been measured yet. -/
theorem read_blank (hboxes : nets * form.boxCount layers < Word.size64)
    (hsinks : nets * layers < Word.size64) (hn : n.toNat < nets) :
    (GeometryBuffer.blank form nets layers).read form layers n = .ok (.blank form layers) := by
  have hslice {value : Type} (stride : Nat) (v : value) :
      slice (.replicate (nets * stride) v) (n.toNat * stride) stride =
        .ok (List.replicate stride v) := by
    have hfits := NetId.part_le hn stride
    refine slice_eq_ok.2 ⟨by rwa [Array.size_replicate], ?_⟩
    rw [Array.extract_replicate, Array.toList_replicate, Nat.min_eq_left hfits,
      Nat.add_sub_cancel_left]
  exact read_eq_ok.2 ⟨NetId.firstOf_eq hn hboxes, hslice _ _, NetId.firstOf_eq hn hsinks,
    hslice _ _⟩

/-- **A geometry that is written** is read again. -/
theorem read_put (h : b.IsFor form nets layers) (hn : n.toNat < nets)
    (hg : g.HasShape form layers) : (b.put form layers n g).read form layers n = .ok g := by
  have hboxes : n.toNat * form.boxCount layers + g.boxes.length ≤ b.boxes.size := by
    rw [hg.boxes, h.boxes]
    exact NetId.part_le hn _
  have hsinks : n.toNat * layers + g.sinks.length ≤ b.sinks.size := by
    rw [hg.sinks, h.sinks]
    exact NetId.part_le hn _
  have hreadBoxes := slice_overwrite hboxes
  have hreadSinks := slice_overwrite hsinks
  rw [hg.boxes] at hreadBoxes
  rw [hg.sinks] at hreadSinks
  exact read_eq_ok.2 ⟨NetId.firstOf_eq hn h.boxRoom, hreadBoxes, NetId.firstOf_eq hn h.sinkRoom,
    hreadSinks⟩

end IsFor

end GeometryBuffer

end WireCost
