import WireCost.Device
import WireCost.Proofs.Checked

/-! # The interior of a device

* **`Interior.lastLine_eq_ok`** — the last interior line of a side.
* **`Interior.ofDevice_eq_ok`** — which devices have an interior, and which one that is.
* **`Interior.exists_ofDevice`** — a device whose sides are words has an interior.
* **`Interior.exists_defect_iff`** — a device without one is refused. -/

namespace WireCost

/-- The device has lines inside the perimeter on both sides, and a layer. -/
def Device.HasInterior (d : Device) : Prop := 3 ≤ d.width ∧ 3 ≤ d.height ∧ d.layers ≠ 0

instance (d : Device) : Decidable d.HasInterior := inferInstanceAs (Decidable (_ ∧ _ ∧ _))

namespace Interior

variable {d : Device} {i : Interior}

/-- The last line inside the perimeter of a side that is cut down to a word. -/
theorem lastLine_eq_ok {size : UInt64} {last : Int} : lastLine size = .ok last ↔
    Word.IsInt32 (Word.cut32 size.toNat - 2) ∧ Word.cut32 size.toNat - 2 = last :=
  Word.int32_eq_ok

/-- The last line inside the perimeter is below the size. -/
theorem lastLine_lt {size : UInt64} {last : Int} (h : lastLine size = .ok last) :
    last < size.toNat ∧ Word.IsInt32 last := by
  obtain ⟨hword, rfl⟩ := lastLine_eq_ok.1 h
  refine ⟨?_, hword⟩
  simp only [Word.cut32, Word.size32, Int.bmod]
  omega

/-- **A device has an interior** if it has lines inside the perimeter on both sides, and a layer. -/
theorem ofDevice_eq_ok : ofDevice d = .ok (.ok i) ↔
    3 ≤ d.width ∧ 3 ≤ d.height ∧ d.layers ≠ 0 ∧ lastLine d.width = .ok i.columns ∧
      lastLine d.height = .ok i.rows ∧ d.layers.toNat = i.layers := by
  rw [ofDevice]
  by_cases hsides : d.width < 3 ∨ d.height < 3
  · rw [if_pos hsides]
    refine ⟨nofun, fun ⟨hwidth, hheight, _⟩ => ?_⟩
    exact absurd hsides (not_or.2 ⟨UInt64.not_lt.2 hwidth, UInt64.not_lt.2 hheight⟩)
  rw [if_neg hsides]
  rw [not_or, UInt64.not_lt, UInt64.not_lt] at hsides
  by_cases hlayers : d.layers = 0
  · rw [if_pos hlayers]
    exact ⟨nofun, fun ⟨_, _, hne, _⟩ => absurd hlayers hne⟩
  rw [if_neg hlayers]
  constructor
  · intro h
    obtain ⟨columns, hcolumns, h⟩ := Checked.bind_eq_ok.1 h
    obtain ⟨rows, hrows, h⟩ := Checked.bind_eq_ok.1 h
    cases h
    exact ⟨hsides.1, hsides.2, hlayers, hcolumns, hrows, rfl⟩
  · rintro ⟨-, -, -, hcolumns, hrows, hi⟩
    rw [hcolumns, Checked.ok_bind, hrows, Checked.ok_bind, hi]

/-- The last line inside the perimeter of a side that is a word. -/
theorem lastLine_of_lt {size : UInt64} (h : 3 ≤ size) (hlt : size.toNat < Word.size31) :
    lastLine size = .ok (size.toNat - 2) := by
  have hle : 3 ≤ size.toNat := UInt64.le_iff_toNat_le.1 h
  have hword : Word.IsInt32 (size.toNat : Int) := by
    simp only [Word.IsInt32, Word.size31] at hlt ⊢
    omega
  rw [lastLine_eq_ok, Word.cut32_of_isInt32 hword]
  unfold Word.IsInt32 at hword ⊢
  exact ⟨by omega, rfl⟩

/-- An interior with a column and a row, whose layers can be told by a word. -/
structure IsOpen (i : Interior) : Prop where
  columns : 1 ≤ i.columns
  rows : 1 ≤ i.rows
  layers : i.layers ≤ Word.size64

/-- **A device has an interior** if its sides are words of at least three, and it has a layer. -/
theorem exists_ofDevice (hwidth : 3 ≤ d.width) (hwidthWord : d.width.toNat < Word.size31)
    (hheight : 3 ≤ d.height) (hheightWord : d.height.toNat < Word.size31) (hlayers : d.layers ≠ 0) :
    ∃ i, ofDevice d = .ok (.ok i) ∧ i.IsOpen ∧ i.layers = d.layers.toNat := by
  have hle : 3 ≤ d.width.toNat := UInt64.le_iff_toNat_le.1 hwidth
  have hle' : 3 ≤ d.height.toNat := UInt64.le_iff_toNat_le.1 hheight
  refine ⟨⟨d.width.toNat - 2, d.height.toNat - 2, d.layers.toNat⟩, ofDevice_eq_ok.2
    ⟨hwidth, hheight, hlayers, lastLine_of_lt hwidth hwidthWord, lastLine_of_lt hheight hheightWord,
      rfl⟩, ⟨?_, ?_, Nat.le_of_lt d.layers.toNat_lt⟩, rfl⟩
  · dsimp only
    omega
  · dsimp only
    omega

/-- **A device is refused** exactly when it has no interior. -/
theorem exists_defect_iff : (∃ defect, ofDevice d = .ok (.error defect)) ↔ ¬ d.HasInterior := by
  rw [ofDevice]
  by_cases hsides : d.width < 3 ∨ d.height < 3
  · rw [if_pos hsides]
    refine ⟨fun _ ⟨hwidth, hheight, _⟩ => ?_, fun _ => ⟨_, rfl⟩⟩
    exact absurd hsides (not_or.2 ⟨UInt64.not_lt.2 hwidth, UInt64.not_lt.2 hheight⟩)
  rw [if_neg hsides]
  rw [not_or, UInt64.not_lt, UInt64.not_lt] at hsides
  by_cases hlayers : d.layers = 0
  · rw [if_pos hlayers]
    exact ⟨fun _ ⟨_, _, hne⟩ => hne hlayers, fun _ => ⟨_, rfl⟩⟩
  rw [if_neg hlayers]
  constructor
  · rintro ⟨defect, h⟩
    obtain ⟨columns, -, h⟩ := Checked.bind_eq_ok.1 h
    obtain ⟨rows, -, h⟩ := Checked.bind_eq_ok.1 h
    cases h
  · exact fun hnone => absurd ⟨hsides.1, hsides.2, hlayers⟩ hnone

/-- The layers of a device can be told by a word. -/
theorem layers_le_of_ofDevice (h : ofDevice d = .ok (.ok i)) : i.layers ≤ Word.size64 := by
  obtain ⟨-, -, -, -, -, hlayers⟩ := ofDevice_eq_ok.1 h
  rw [← hlayers]
  exact Nat.le_of_lt d.layers.toNat_lt

end Interior

end WireCost
