import WireCost.Proofs.Checked
import WireCost.Stress.Proposal

/-! # Targets within range

A target is drawn line by line, from the part of each side that is within range. The ends of that
part are computed with signed words, and so is the range.

* **`Device.HasLocation`** — the locations of a device that blocks are placed on.
* **`Proposer.FitsWord`** — a range from a location that does not run over a word.
* **`Proposer.exists_drawTarget`** — then a target is drawn, and it lies within range.
* **`Proposer.exists_drawTarget_eq_error`** — otherwise drawing one is a fault. -/

namespace WireCost

/-! ## Throwing dice -/

namespace Random

variable {σ α β : Type}

/-- A computation goes on with the dice that its first part leaves. -/
theorem bind_apply (x : Random σ α) (f : α → Random σ β) (dice : σ) :
    (x >>= f) dice = x dice >>= fun r => f r.1 r.2 := rfl

/-- A check throws no dice. -/
theorem lift_bind (x : Checked α) (f : α → Random σ β) (dice : σ) :
    ((liftM x : Random σ α) >>= f) dice = x >>= fun a => f a dice := by
  cases x with
  | error fault => rfl
  | ok a => rfl

end Random

/-! ## Locations of a device -/

/-- **A location of a device:** the first slot of one of its tiles. -/
structure Device.HasLocation (d : Device) (l : Location) : Prop where
  x : 0 ≤ l.x.toInt ∧ l.x.toInt < d.width.toNat
  y : 0 ≤ l.y.toInt ∧ l.y.toInt < d.height.toNat
  layer : 0 ≤ l.layer.toInt ∧ l.layer.toInt < d.layers.toNat
  subTile : l.subTile = 0

/-- The sides of a device and its layers are counted by signed words. -/
structure Device.IsCounted (d : Device) : Prop where
  width : d.width.toNat < Word.size31
  height : d.height.toNat < Word.size31
  layers : d.layers.toNat < Word.size31

namespace Proposer

/-- Two lines are at most so far apart. -/
def Near (range : UInt32) (v w : Int32) : Prop := (w.toInt - v.toInt).natAbs ≤ range.toNat

variable {σ : Type} [Dice σ] {d : Device} {p : Proposer} {size : UInt64} {range : UInt32}
  {v : Int32} {source : Location}

/-! ## Drawing a line -/

/-- Drawing a line, as its checks and its draw. -/
theorem drawLine_eq (reach : Int) (size : UInt64) (v : Int32) (dice : σ) :
    drawLine reach size v dice =
      Word.int32 (v.toInt - reach) >>= fun low =>
      Word.int32 (v.toInt + reach) >>= fun high =>
      Word.int32 (Word.cut32 size.toNat - 1) >>= fun last =>
      draw (max low 0) (min high last) dice >>= fun r => .ok (.ofInt r.1, r.2) := by
  simp only [drawLine, Random.lift_bind]
  rfl

/-- **A line within range** is drawn if the range does not run over a word. -/
theorem exists_drawLine (hsize : size.toNat < Word.size31) (hv : 0 ≤ v.toInt ∧ v.toInt < size.toNat)
    (hfits : v.toInt + range.toNat < Word.size31) (dice : σ) :
    ∃ line rest, drawLine (Word.cut32 range.toNat) size v dice = .ok (line, rest) ∧
      (0 ≤ line.toInt ∧ line.toInt < size.toNat) ∧ Near range v line := by
  rw [Word.size31] at hsize hfits
  have hrange : Word.cut32 range.toNat = range.toNat :=
    Word.cut32_of_isInt32 ⟨by omega, by omega⟩
  have hlast : Word.cut32 size.toNat = size.toNat :=
    Word.cut32_of_isInt32 ⟨by omega, by omega⟩
  have hdrawn : max (v.toInt - range.toNat) 0 ≤ min (v.toInt + range.toNat) (size.toNat - 1) := by
    omega
  obtain ⟨n, rest, hdraw, hlow, hhigh⟩ := draw_eq_ok hdrawn dice
  refine ⟨.ofInt n, rest, ?_, ?_⟩
  · rw [drawLine_eq, hrange, hlast, Word.int32_of_isInt32 ⟨by omega, by omega⟩, Checked.ok_bind,
      Word.int32_of_isInt32 ⟨by omega, by omega⟩, Checked.ok_bind,
      Word.int32_of_isInt32 ⟨by omega, by omega⟩, Checked.ok_bind, hdraw, Checked.ok_bind]
  · rw [Near, Int32.toInt_ofInt_of_le (by omega) (by omega)]
    exact ⟨by omega, by omega⟩

/-- **No line** is drawn if the range runs over a word: either the range does not fit one, or the
cut one is negative and leaves nothing to draw from. -/
theorem exists_drawLine_eq_error (hv : 0 ≤ v.toInt) (hruns : Word.size31 ≤ v.toInt + range.toNat)
    (dice : σ) : ∃ fault, drawLine (Word.cut32 range.toNat) size v dice = .error fault := by
  cases hdraw : drawLine (Word.cut32 range.toNat) size v dice with
  | error fault => exact ⟨fault, rfl⟩
  | ok r =>
    simp only [drawLine_eq, Checked.bind_eq_ok, Word.int32_eq_ok, Word.IsInt32] at hdraw
    obtain ⟨low, ⟨hlowWord, rfl⟩, high, ⟨hhighWord, rfl⟩, last, -, r, hdraw, -⟩ := hdraw
    have hrange := range.toNat_lt
    rw [Word.size31] at hruns
    -- the upper end is a word, so the range is not one
    have hcut : Word.cut32 range.toNat = range.toNat - 4294967296 := by
      simp only [Word.cut32, Word.size32, Int.bmod] at hhighWord ⊢
      omega
    rw [draw_eq_error (by omega)] at hdraw
    cases hdraw

/-! ## Drawing a target -/

/-- The range from a location does not run over a word, along either axis. -/
def FitsWord (range : UInt32) (l : Location) : Prop :=
  l.x.toInt + range.toNat < Word.size31 ∧ l.y.toInt + range.toNat < Word.size31

/-- **A target within range:** another location of the device, near on each axis. -/
structure IsTarget (d : Device) (range : UInt32) (source target : Location) : Prop where
  site : d.HasLocation target
  x : Near range source.x target.x
  y : Near range source.y target.y

theorem drawTarget_eq (p : Proposer) (d : Device) (source : Location) (dice : σ) :
    p.drawTarget d source dice =
      drawLine p.range d.width source.x dice >>= fun x =>
      drawLine p.range d.height source.y x.2 >>= fun y =>
      draw 0 (Word.cut32 d.layers.toNat - 1) y.2 >>= fun layer =>
      .ok (⟨x.1, y.1, 0, .ofInt layer.1⟩, layer.2) := rfl

/-- **A target** is drawn if the range does not run over a word. -/
theorem exists_drawTarget (hrange : p.range = Word.cut32 range.toNat) (hd : d.IsCounted)
    (hsource : d.HasLocation source) (hfits : FitsWord range source) (dice : σ) :
    ∃ target rest, p.drawTarget d source dice = .ok (target, rest) ∧
      IsTarget d range source target := by
  obtain ⟨x, rest, hx, hxOn, hxNear⟩ := exists_drawLine hd.width hsource.x hfits.1 dice
  obtain ⟨y, rest', hy, hyOn, hyNear⟩ := exists_drawLine hd.height hsource.y hfits.2 rest
  have hlayers := hd.layers
  have hlayer := hsource.layer
  rw [Word.size31] at hlayers
  have hcut : Word.cut32 d.layers.toNat = d.layers.toNat :=
    Word.cut32_of_isInt32 ⟨by omega, by omega⟩
  have hdrawn : (0 : Int) ≤ d.layers.toNat - 1 := by omega
  obtain ⟨n, rest'', hdraw, hlow, hhigh⟩ := draw_eq_ok hdrawn rest'
  refine ⟨⟨x, y, 0, .ofInt n⟩, rest'', ?_, ⟨hxOn, hyOn, ?_, rfl⟩, hxNear, hyNear⟩
  · rw [drawTarget_eq, hrange, hx, Checked.ok_bind, hy, Checked.ok_bind, hcut, hdraw,
      Checked.ok_bind]
  · rw [Int32.toInt_ofInt_of_le (by omega) (by omega)]
    exact ⟨hlow, by omega⟩

/-- **No target** is drawn if the range runs over a word. -/
theorem exists_drawTarget_eq_error (hrange : p.range = Word.cut32 range.toNat)
    (hd : d.IsCounted) (hsource : d.HasLocation source) (hruns : ¬ FitsWord range source)
    (dice : σ) : ∃ fault, p.drawTarget d source dice = .error fault := by
  rw [drawTarget_eq, hrange]
  by_cases hx : source.x.toInt + range.toNat < Word.size31
  · obtain ⟨x, rest, hdraw, -, -⟩ := exists_drawLine hd.width hsource.x hx dice
    have hy : Word.size31 ≤ source.y.toInt + range.toNat := by
      by_contra hy
      exact hruns ⟨hx, by omega⟩
    obtain ⟨fault, hfault⟩ := exists_drawLine_eq_error hsource.y.1 hy rest
    exact ⟨fault, by rw [hdraw, Checked.ok_bind, hfault, Checked.error_bind]⟩
  · have hruns : Word.size31 ≤ source.x.toInt + range.toNat := by omega
    obtain ⟨fault, hfault⟩ := exists_drawLine_eq_error hsource.x.1 hruns dice
    exact ⟨fault, by rw [hfault, Checked.error_bind]⟩

end Proposer

end WireCost
