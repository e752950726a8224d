import WireCost.Proofs.Device
import WireCost.Proofs.Netlist.Sites

/-! # The interior of a device of any size

The sides of a device are words of 64 bits, and the last interior line is found after cutting them
down to words of 32 bits. Long sides are therefore misread.

* **`Interior.RunsOver`**, **`Interior.lastLine_eq_error`** — the sides that have no last line at
  all.
* **`Interior.lastLine_eq_sub_two_iff`** — the sides whose last line is where it should be.
* **`Interior.IsNearest`**, **`Interior.IsNearest.clamp`** — the interior line nearest to a pin.
* **`Interior.clip_eq_self_iff`**, **`Interior.contains_iff`** — the sites that stay where they are,
  and the boxes that have such sites as their corners.
* **`Interior.interior_of_any_device`** — what becomes of a device, whatever its size.
* **`Interior.long_side_misread`** — sides of 2³¹ and of 2³² + 5 lines. -/

namespace WireCost.Interior

/-! ## The last line of a side -/

/-- The perimeter cannot be taken off a side, because what it is cut down to is one of the two
smallest words. -/
def RunsOver (size : UInt64) : Prop :=
  size.toNat % Word.size32 = Word.size31 ∨ size.toNat % Word.size32 = Word.size31 + 1

instance (size : UInt64) : Decidable (RunsOver size) := inferInstanceAs (Decidable (_ ∨ _))

/-- A side runs over when its last line is not a word. -/
theorem runsOver_iff {size : UInt64} :
    RunsOver size ↔ ¬ Word.IsInt32 (Word.cut32 size.toNat - 2) := by
  simp only [RunsOver, Word.IsInt32, Word.cut32, Word.size31, Word.size32, Int.bmod]
  omega

/-- **A side without a last line** is one that runs over. -/
theorem lastLine_eq_error {size : UInt64} {e : Fault} :
    lastLine size = .error e ↔ RunsOver size ∧ e = .overflow := by
  by_cases hword : Word.IsInt32 (Word.cut32 size.toNat - 2)
  · rw [lastLine, Word.int32_of_isInt32 hword]
    exact ⟨nofun, fun ⟨hover, _⟩ => absurd hword (runsOver_iff.1 hover)⟩
  · rw [lastLine, Word.int32, if_neg hword, Except.error.injEq]
    exact ⟨fun he => ⟨runsOver_iff.2 hword, he.symm⟩, fun ⟨_, he⟩ => he.symm⟩

/-- Every other side has one, counted from what it is cut down to. -/
theorem lastLine_of_not_runsOver {size : UInt64} (h : ¬ RunsOver size) :
    lastLine size = .ok (Word.cut32 size.toNat - 2) :=
  lastLine_eq_ok.2 ⟨not_not.1 (mt runsOver_iff.2 h), rfl⟩

/-- **The last line is where it should be** exactly on the sides that are signed words. -/
theorem lastLine_eq_sub_two_iff {size : UInt64} {last : Int} (h : lastLine size = .ok last) :
    last = size.toNat - 2 ↔ size.toNat < Word.size31 := by
  obtain ⟨-, rfl⟩ := lastLine_eq_ok.1 h
  simp only [Word.cut32, Word.size31, Word.size32, Int.bmod]
  omega

/-! ## The nearest site -/

/-- `w` is the line of `1..=last` nearest to `v`, and no other one is as near. -/
structure IsNearest (last v w : Int) : Prop where
  inside : 1 ≤ w ∧ w ≤ last
  nearest : ∀ u, 1 ≤ u → u ≤ last → u ≠ w → (v - w).natAbs < (v - u).natAbs

/-- **Clamping finds the nearest line.** -/
theorem IsNearest.clamp {last v w : Int} (h : Interior.clamp last v = .ok w) :
    IsNearest last v w := by
  obtain ⟨hlast, rfl⟩ := clamp_eq_ok.1 h
  exact ⟨by omega, fun u hlow hhigh hne => by omega⟩

variable {i : Interior} {s t : Site}

/-- **A site stays where it is** when it is an interior site. -/
theorem clip_eq_self_iff : i.clip s = .ok s ↔ i.HasSite s := by
  refine ⟨hasSite_of_clip, fun ⟨⟨hx, hcolumns⟩, ⟨hy, hrows⟩, hlayer⟩ => ?_⟩
  refine clip_eq_ok.2 ⟨⟨hlayer, hx.trans hcolumns, hy.trans hrows⟩, ?_⟩
  rw [min_eq_right hcolumns, max_eq_right hx, min_eq_right hrows, max_eq_right hy]

/-- Without an interior line, no site can be clipped. -/
theorem clip_of_not_open (hlayer : i.HasLayer s.layer) (hnone : ¬ (1 ≤ i.columns ∧ 1 ≤ i.rows)) :
    i.clip s = .error .emptyRange := by
  rw [clip, require_of hlayer, Checked.ok_bind]
  by_cases hcolumns : 1 ≤ i.columns
  · rw [clamp_eq_ok.2 ⟨hcolumns, rfl⟩, Checked.ok_bind, clamp,
      if_pos (not_le.1 fun hrows => hnone ⟨hcolumns, hrows⟩), Checked.error_bind]
  · rw [clamp, if_pos (not_le.1 hcolumns), Checked.error_bind]

/-- **Clipping moves a site to the nearest column and row,** keeps its layer, and does nothing the
second time. -/
theorem exists_clip (hlayer : i.HasLayer s.layer) (hcolumns : 1 ≤ i.columns) (hrows : 1 ≤ i.rows) :
    ∃ t, i.clip s = .ok t ∧ IsNearest i.columns s.x t.x ∧ IsNearest i.rows s.y t.y ∧
      t.layer = s.layer ∧ i.clip t = .ok t := by
  have hclip := clip_eq_ok.2 ⟨⟨hlayer, hcolumns, hrows⟩, rfl⟩
  exact ⟨_, hclip, .clamp (clamp_eq_ok.2 ⟨hcolumns, rfl⟩), .clamp (clamp_eq_ok.2 ⟨hrows, rfl⟩),
    rfl, clip_eq_self_iff.2 (hasSite_of_clip hclip)⟩

/-- **A box is inside** when its extents are in order and its corners stay where they are. -/
theorem contains_iff {xmin xmax ymin ymax layer : Int} (hlayer : i.HasLayer layer) :
    i.contains xmin xmax ymin ymax = true ↔ xmin ≤ xmax ∧ ymin ≤ ymax ∧
      i.clip ⟨xmin, ymin, layer⟩ = .ok ⟨xmin, ymin, layer⟩ ∧
      i.clip ⟨xmax, ymax, layer⟩ = .ok ⟨xmax, ymax, layer⟩ := by
  simp only [contains, Bool.and_eq_true, decide_eq_true_eq, clip_eq_self_iff]
  constructor
  · rintro ⟨⟨⟨⟨⟨hxmin, hx⟩, hxmax⟩, hymin⟩, hy⟩, hymax⟩
    exact ⟨hx, hy, ⟨⟨hxmin, hx.trans hxmax⟩, ⟨hymin, hy.trans hymax⟩, hlayer⟩,
      ⟨⟨hxmin.trans hx, hxmax⟩, ⟨hymin.trans hy, hymax⟩, hlayer⟩⟩
  · rintro ⟨hx, hy, hlow, hhigh⟩
    exact ⟨⟨⟨⟨⟨hlow.column.1, hx⟩, hhigh.column.2⟩, hlow.row.1⟩, hy⟩, hhigh.row.2⟩

/-! ## Devices of any size -/

/-- A device that is not refused has the interior that its sides give, or a side that runs over. -/
theorem ofDevice_of_hasInterior {d : Device} (h : d.HasInterior) : ofDevice d = (do
    let columns ← lastLine d.width
    let rows ← lastLine d.height
    .ok (.ok ⟨columns, rows, d.layers.toNat⟩)) := by
  obtain ⟨hwidth, hheight, hlayers⟩ := h
  rw [ofDevice, if_neg (not_or.2 ⟨UInt64.not_lt.2 hwidth, UInt64.not_lt.2 hheight⟩),
    if_neg hlayers]

/-- **A device faults** exactly when it has an interior and one of its sides runs over. -/
theorem ofDevice_eq_error {d : Device} {e : Fault} : ofDevice d = .error e ↔
    d.HasInterior ∧ (RunsOver d.width ∨ RunsOver d.height) ∧ e = .overflow := by
  by_cases hinterior : d.HasInterior
  · rw [ofDevice_of_hasInterior hinterior]
    by_cases hwidth : RunsOver d.width
    · rw [lastLine_eq_error.2 ⟨hwidth, rfl⟩, Checked.error_bind, Except.error.injEq]
      exact ⟨fun he => ⟨hinterior, .inl hwidth, he.symm⟩, fun ⟨_, _, he⟩ => he.symm⟩
    rw [lastLine_of_not_runsOver hwidth, Checked.ok_bind]
    by_cases hheight : RunsOver d.height
    · rw [lastLine_eq_error.2 ⟨hheight, rfl⟩, Checked.error_bind, Except.error.injEq]
      exact ⟨fun he => ⟨hinterior, .inr hheight, he.symm⟩, fun ⟨_, _, he⟩ => he.symm⟩
    rw [lastLine_of_not_runsOver hheight, Checked.ok_bind]
    exact ⟨nofun, fun ⟨_, hover, _⟩ => absurd hover (not_or.2 ⟨hwidth, hheight⟩)⟩
  · obtain ⟨defect, hdefect⟩ := exists_defect_iff.2 hinterior
    rw [hdefect]
    exact ⟨nofun, fun ⟨h, _⟩ => absurd h hinterior⟩

/-- **What becomes of a device, whatever its size.** One that is too small or has no layer is
refused, with the reason. One whose sides are signed words has the interior that leaves the
perimeter out. A longer side runs over when it is 2³¹ or 2³¹ + 1, up to multiples of 2³², and the
device faults; any other longer side is cut down to a word, and the last line is never where it
should be. Whatever interior comes out: if it has a column and a row, then every site on a layer is
clipped to the nearest one, keeps its layer, and stays there; if it has none, no site can be
clipped. A box is inside exactly when it is in order and its corners stay where they are. -/
theorem interior_of_any_device (d : Device) :
    (d.width < 3 ∨ d.height < 3 →
      ofDevice d = .ok (.error (.noInterior d.width.toNat d.height.toNat))) ∧
    (3 ≤ d.width → 3 ≤ d.height → d.layers = 0 → ofDevice d = .ok (.error .noLayers)) ∧
    (d.HasInterior → d.width.toNat < Word.size31 → d.height.toNat < Word.size31 →
      ofDevice d = .ok (.ok ⟨d.width.toNat - 2, d.height.toNat - 2, d.layers.toNat⟩)) ∧
    (∀ e, ofDevice d = .error e ↔
      d.HasInterior ∧ (RunsOver d.width ∨ RunsOver d.height) ∧ e = .overflow) ∧
    ∀ i, ofDevice d = .ok (.ok i) →
      i = ⟨Word.cut32 d.width.toNat - 2, Word.cut32 d.height.toNat - 2, d.layers.toNat⟩ ∧
      (i.columns = d.width.toNat - 2 ↔ d.width.toNat < Word.size31) ∧
      (i.rows = d.height.toNat - 2 ↔ d.height.toNat < Word.size31) ∧
      (∀ s, i.HasLayer s.layer →
        if 1 ≤ i.columns ∧ 1 ≤ i.rows then
          ∃ t, i.clip s = .ok t ∧ IsNearest i.columns s.x t.x ∧ IsNearest i.rows s.y t.y ∧
            t.layer = s.layer ∧ i.clip t = .ok t
        else i.clip s = .error .emptyRange) ∧
      ∀ xmin xmax ymin ymax layer, i.HasLayer layer →
        (i.contains xmin xmax ymin ymax = true ↔ xmin ≤ xmax ∧ ymin ≤ ymax ∧
          i.clip ⟨xmin, ymin, layer⟩ = .ok ⟨xmin, ymin, layer⟩ ∧
          i.clip ⟨xmax, ymax, layer⟩ = .ok ⟨xmax, ymax, layer⟩) := by
  refine ⟨fun hsides => ?_, fun hwidth hheight hlayers => ?_, fun hinterior hwidth hheight => ?_,
    fun e => ofDevice_eq_error, fun i hi => ?_⟩
  · rw [ofDevice, if_pos hsides]
  · rw [ofDevice, if_neg (not_or.2 ⟨UInt64.not_lt.2 hwidth, UInt64.not_lt.2 hheight⟩),
      if_pos hlayers]
  · rw [ofDevice_of_hasInterior hinterior, lastLine_of_lt hinterior.1 hwidth, Checked.ok_bind,
      lastLine_of_lt hinterior.2.1 hheight, Checked.ok_bind]
  · obtain ⟨-, -, -, hwidth, hheight, hlayers⟩ := ofDevice_eq_ok.1 hi
    refine ⟨?_, lastLine_eq_sub_two_iff hwidth, lastLine_eq_sub_two_iff hheight,
      fun s hlayer => ?_, fun _ _ _ _ _ hlayer => contains_iff hlayer⟩
    · rw [(lastLine_eq_ok.1 hwidth).2, (lastLine_eq_ok.1 hheight).2, hlayers]
    · split
      case isTrue hopen => exact exists_clip hlayer hopen.1 hopen.2
      case isFalse hnone => exact clip_of_not_open hlayer hnone

/-- A side of 2³¹ lines, whose last interior line would be a word, makes the device fault; a side of
2³² + 5 lines is taken for one of five. -/
theorem long_side_misread :
    ofDevice ⟨2147483648, 3, 1, [], []⟩ = .error .overflow ∧
      Word.IsInt32 ((2147483648 : UInt64).toNat - 2) ∧
      ofDevice ⟨4294967301, 3, 1, [], []⟩ = .ok (.ok ⟨3, 1, 1⟩) := by
  decide

end WireCost.Interior
