import Mathlib.Data.Multiset.Count
import Mathlib.Data.Multiset.Filter
import Mathlib.Data.Multiset.MapFold
import Mathlib.Order.RelClasses
import WireCost.EdgeBox.Update
import WireCost.Proofs.Checked

/-! # Exact boxes

A box is exact for a multiset of points when its edges lie on the extreme lines of the points and
count the points on them. The edits of a box keep it exact, or refuse where only a scan can tell.

* **`Edge.Bounds`** — an edge on the first line of a multiset, in either direction of an axis.
* **`Span.Measures`**, **`EdgeBox.Measures`** — exact spans and boxes. There is only one for every
  multiset: `EdgeBox.Measures.unique`.
* **`EdgeBox.Fits`** — the pins on each edge can be counted by a word; **`EdgeBox.Measures.fits`**
  holds of few points.
* **`EdgeBox.Measures.include_eq`** — a pin joins an exact box, as long as those on each edge can be
  counted; **`EdgeBox.Measures.join`** — it joins few points.
* **`EdgeBox.Measures.exclude?`**, **`EdgeBox.Measures.shift?`** — a pin leaves or moves, with the
  exact condition on which the edit is refused.
* **`EdgeBox.moved_pin_exact`** — a pin moves, however many points there are. -/

namespace WireCost

/-! ## One edge

The low edge and the high edge of a span obey the same laws with the order of the lines turned
round, so they are proved once, for a linear order `r` that puts the lines beyond the edge first. -/

/-- The pins on the edge can be counted by a word. -/
def Edge.Fits (e : Edge) : Prop := e.pins < Word.size32

instance (e : Edge) : Decidable e.Fits := inferInstanceAs (Decidable (_ < _))

theorem Edge.fits_one (v : Int) : Edge.Fits ⟨v, 1⟩ := by
  show 1 < Word.size32
  decide

/-- The edge lies on the first line of `xs` in the order `r` and counts the points on it. -/
structure Edge.Bounds (r : Int → Int → Prop) (e : Edge) (xs : Multiset Int) : Prop where
  mem : e.line ∈ xs
  first : ∀ x ∈ xs, r e.line x
  pins : e.pins = xs.count e.line

namespace Edge.Bounds

variable {r : Int → Int → Prop} {e e' : Edge} {xs : Multiset Int} {v old new : Int}

/-- An edge that bounds points is not bare. -/
theorem pins_pos (h : e.Bounds r xs) : 0 < e.pins := by
  rw [h.pins]
  exact Multiset.count_pos.2 h.mem

/-- An edge counts no more pins than there are. -/
theorem pins_le (h : e.Bounds r xs) : e.pins ≤ xs.card := by
  rw [h.pins]
  exact Multiset.count_le_card _ _

/-- The edge of few points fits. -/
theorem fits (h : e.Bounds r xs) (room : xs.card < Word.size32) : e.Fits :=
  Nat.lt_of_le_of_lt h.pins_le room

/-- One more point within the edge and not on it. -/
theorem cons_within (h : e.Bounds r xs) (hv : r e.line v) (hne : v ≠ e.line) :
    e.Bounds r (v ::ₘ xs) where
  mem := Multiset.mem_cons_of_mem h.mem
  first := by
    intro x hx
    obtain rfl | hx := Multiset.mem_cons.1 hx
    · exact hv
    · exact h.first x hx
  pins := by rw [h.pins, Multiset.count_cons_of_ne hne.symm]

/-- **A point leaves an edge:** the edge stays where it is, and there is no answer exactly when the
point was the only one on it. -/
theorem leave? (h : e.Bounds r xs) (hv : v ∈ xs) :
    ∃ o, e.leave? v = .ok o ∧ (o = none ↔ v = e.line ∧ e.pins = 1) ∧
      ∀ e' ∈ o, e'.line = e.line ∧ e'.pins ≤ e.pins ∧ e'.Bounds r (xs.erase v) := by
  have hfirst : ∀ x ∈ xs.erase v, r e.line x := fun x hx =>
    h.first x (Multiset.mem_of_mem_erase hx)
  unfold Edge.leave?
  -- only a point on the edge changes its count
  by_cases hline : v = e.line
  · subst hline
    rw [if_pos rfl]
    by_cases hone : e.pins = 1
    · exact ⟨none, by rw [if_pos hone], by simp [hone], by simp⟩
    · have hpos := h.pins_pos
      have hcount : (xs.erase e.line).count e.line = e.pins - 1 := by
        rw [Multiset.count_erase_self, h.pins]
      have hmem : e.line ∈ xs.erase e.line := Multiset.count_pos.1 (by rw [hcount]; omega)
      refine ⟨some ⟨e.line, e.pins - 1⟩, ?_, by simp [hone], ?_⟩
      · rw [if_neg hone, Word.pred, if_neg (by omega)]
        rfl
      · rintro e' ⟨⟩
        exact ⟨rfl, Nat.sub_le _ _, hmem, hfirst, hcount.symm⟩
  · refine ⟨some e, by rw [if_neg hline], by simp [hline], ?_⟩
    rintro e' ⟨⟩
    refine ⟨rfl, le_rfl, (Multiset.mem_erase_of_ne (Ne.symm hline)).2 h.mem, hfirst, ?_⟩
    rw [h.pins, Multiset.count_erase_of_ne (Ne.symm hline)]

variable [IsLinearOrder Int r]

/-- The edge of a single point. -/
theorem point (v : Int) : Edge.Bounds r ⟨v, 1⟩ {v} where
  mem := Multiset.mem_singleton_self v
  first := by
    intro x hx
    rw [Multiset.mem_singleton.1 hx]
    exact refl v
  pins := (Multiset.count_singleton_self v).symm

/-- **There is only one edge that bounds given points.** -/
theorem unique (h : e.Bounds r xs) (h' : e'.Bounds r xs) : e = e' := by
  have hline : e.line = e'.line := antisymm (h.first _ h'.mem) (h'.first _ h.mem)
  have hpins : e.pins = e'.pins := by rw [h.pins, h'.pins, hline]
  cases e
  cases e'
  simp_all

/-- A point beyond the edge is alone on its line. -/
theorem cons_beyond (h : e.Bounds r xs) {ys : Multiset Int} (hys : ∀ y ∈ ys, y ∈ xs)
    (hv : ¬ r e.line v) : Edge.Bounds r ⟨v, 1⟩ (v ::ₘ ys) := by
  have hbefore : r v e.line := (total_of r v e.line).resolve_right hv
  have hnot : v ∉ ys := fun hmem => hv (h.first v (hys v hmem))
  refine ⟨Multiset.mem_cons_self v ys, ?_, ?_⟩
  · intro x hx
    obtain rfl | hx := Multiset.mem_cons.1 hx
    · exact refl x
    · exact trans_of r hbefore (h.first x (hys x hx))
  · rw [Multiset.count_cons_self, Multiset.count_eq_zero_of_notMem hnot]

/-- **A point comes to an edge** that bounds the others. This fails only if the points on the edge
cannot be counted any more. -/
theorem take_eq {beyond : Bool} (h : e.Bounds r xs) (hb : beyond = true ↔ ¬ r e.line v)
    (hfits : e.Fits) : ∃ e', e'.Bounds r (v ::ₘ xs) ∧
      e.take beyond v = if e'.Fits then .ok e' else .error .overflow := by
  unfold Edge.take
  by_cases hv : r e.line v
  · rw [if_neg (by rw [hb]; exact not_not.2 hv)]
    by_cases hline : v = e.line
    · subst hline
      refine ⟨⟨e.line, e.pins + 1⟩, ⟨Multiset.mem_cons_self _ _, ?_, ?_⟩, ?_⟩
      · intro x hx
        obtain rfl | hx := Multiset.mem_cons.1 hx
        · exact hv
        · exact h.first x hx
      · rw [Multiset.count_cons_self, h.pins]
      · rw [if_pos rfl, Word.nat32]
        by_cases hroom : e.pins + 1 < Word.size32
        · have hnew : Edge.Fits ⟨e.line, e.pins + 1⟩ := hroom
          rw [if_pos hroom, if_pos hnew]
          rfl
        · have hnew : ¬ Edge.Fits ⟨e.line, e.pins + 1⟩ := hroom
          rw [if_neg hroom, if_neg hnew]
          rfl
    · exact ⟨e, h.cons_within hv hline, by rw [if_neg hline, if_pos hfits]⟩
  · -- beyond the edge, the point makes an edge of its own
    exact ⟨⟨v, 1⟩, h.cons_beyond (fun _ => id) hv,
      by rw [if_pos (hb.2 hv), if_pos (Edge.fits_one v)]⟩

/-- **Some edge bounds any points.** -/
theorem exists_of_ne_zero (h : xs ≠ 0) : ∃ e : Edge, e.Bounds r xs := by
  induction xs using Multiset.induction_on with
  | empty => exact absurd rfl h
  | cons v xs ih =>
    by_cases hxs : xs = 0
    · subst hxs
      exact ⟨⟨v, 1⟩, .point v⟩
    · obtain ⟨e, he⟩ := ih hxs
      by_cases hv : r e.line v
      · by_cases hline : v = e.line
        · refine ⟨⟨v, (v ::ₘ xs).count v⟩, Multiset.mem_cons_self v xs, ?_, rfl⟩
          intro x hx
          obtain rfl | hx := Multiset.mem_cons.1 hx
          · exact refl x
          · rw [hline]
            exact he.first x hx
        · exact ⟨e, he.cons_within hv hline⟩
      · exact ⟨⟨v, 1⟩, he.cons_beyond (fun _ => id) hv⟩

/-- **A point moves towards an edge,** from behind or from the edge itself. The edge is taken as it
was before the point left: a point that leaves it in this direction ends beyond it. -/
theorem take_ahead {beyond : Bool} (h : e.Bounds r xs) (hb : beyond = true ↔ ¬ r e.line new)
    (hold : old ∈ xs) (hnew : r new old) (hne : new ≠ old) (hfits : e.Fits) :
    ∃ e', e'.Bounds r (new ::ₘ xs.erase old) ∧
      e.take beyond new = if e'.Fits then .ok e' else .error .overflow := by
  by_cases hv : r e.line new
  · have holdline : old ≠ e.line := by
      rintro rfl
      exact hne (antisymm hnew hv)
    -- the point was behind the edge, so the edge bounds the others, and the point comes to them
    have herase : e.Bounds r (xs.erase old) := by
      refine ⟨(Multiset.mem_erase_of_ne holdline.symm).2 h.mem, ?_, ?_⟩
      · exact fun x hx => h.first x (Multiset.mem_of_mem_erase hx)
      · rw [h.pins, Multiset.count_erase_of_ne holdline.symm]
    exact herase.take_eq hb hfits
  · refine ⟨⟨new, 1⟩, h.cons_beyond (fun _ => Multiset.mem_of_mem_erase) hv, ?_⟩
    rw [Edge.take, if_pos (hb.2 hv), if_pos (Edge.fits_one new)]

/-- **A point moves away from an edge** and leaves it, if it was on it. -/
theorem leave?_behind (h : e.Bounds r xs) (hold : old ∈ xs) (hnew : r old new) (hne : new ≠ old) :
    ∃ o, e.leave? old = .ok o ∧ (o = none ↔ old = e.line ∧ e.pins = 1) ∧
      ∀ e' ∈ o, e'.pins ≤ e.pins ∧ e'.Bounds r (new ::ₘ xs.erase old) := by
  obtain ⟨o, ho, hnone, hsome⟩ := h.leave? hold
  refine ⟨o, ho, hnone, fun e' he' => ?_⟩
  obtain ⟨hline, hle, hbounds⟩ := hsome e' he'
  have hwithin : r e'.line new := by
    rw [hline]
    exact trans_of r (h.first old hold) hnew
  refine ⟨hle, hbounds.cons_within hwithin ?_⟩
  -- a point on the edge would have had to move towards it
  rintro rfl
  rw [hline] at hnew hne
  exact hne (antisymm (h.first old hold) hnew)

/-- **A point moves towards one edge and away from the other.** It may be lost to the edge behind
it, and there may be no room for it on the edge ahead. -/
theorem move {r' : Int → Int → Prop} [IsLinearOrder Int r'] {beyond : Bool} {ahead behind : Edge}
    (h : ahead.Bounds r xs) (h' : behind.Bounds r' xs)
    (hb : beyond = true ↔ ¬ r ahead.line new) (hold : old ∈ xs) (hnew : r new old)
    (hnew' : r' old new) (hne : new ≠ old) (hfits : ahead.Fits) (hfits' : behind.Fits) :
    ∃ ahead' behind', ahead'.Bounds r (new ::ₘ xs.erase old) ∧
      behind'.Bounds r' (new ::ₘ xs.erase old) ∧
      ahead.take beyond new = (if ahead'.Fits then .ok ahead' else .error .overflow) ∧
      behind.leave? old =
        .ok (if old = behind.line ∧ behind.pins = 1 then none else some behind') ∧
      (¬ (old = behind.line ∧ behind.pins = 1) → behind'.Fits) := by
  obtain ⟨ahead', hahead, htake⟩ := h.take_ahead hb hold hnew hne hfits
  obtain ⟨o, hleave, hnone, hsome⟩ := h'.leave?_behind hold hnew' hne
  cases o with
  | none =>
    have hlost := hnone.1 rfl
    obtain ⟨behind', hbehind⟩ := exists_of_ne_zero (r := r') (Multiset.cons_ne_zero (a := new))
    exact ⟨ahead', behind', hahead, hbehind, htake, by rw [hleave, if_pos hlost],
      fun hkept => absurd hlost hkept⟩
  | some behind' =>
    have hkept := mt hnone.2 (Option.some_ne_none behind')
    obtain ⟨hle, hbehind⟩ := hsome behind' rfl
    exact ⟨ahead', behind', hahead, hbehind, htake, by rw [hleave, if_neg hkept],
      fun _ => Nat.lt_of_le_of_lt hle hfits'⟩

end Edge.Bounds

/-! ## One axis -/

/-- The pins on both edges can be counted. -/
structure Span.Fits (s : Span) : Prop where
  low : s.low.Fits
  high : s.high.Fits

instance (s : Span) : Decidable s.Fits :=
  decidable_of_iff (s.low.Fits ∧ s.high.Fits) ⟨fun h => ⟨h.1, h.2⟩, fun h => ⟨h.low, h.high⟩⟩

/-- The span is exact for the points `xs`. -/
structure Span.Measures (s : Span) (xs : Multiset Int) : Prop where
  low : s.low.Bounds (· ≤ ·) xs
  high : s.high.Bounds (· ≥ ·) xs

/-- A point at `v` is alone on an edge of the span. -/
def Span.IsAlone (s : Span) (v : Int) : Prop :=
  (v = s.low.line ∧ s.low.pins = 1) ∨ (v = s.high.line ∧ s.high.pins = 1)

/-- A point that moves from `old` to `new` leaves an edge, away from it, on which it is alone. -/
def Span.IsAbandoned (s : Span) (old new : Int) : Prop :=
  (new < old ∧ old = s.high.line ∧ s.high.pins = 1) ∨
    (old < new ∧ old = s.low.line ∧ s.low.pins = 1)

instance (s : Span) (v : Int) : Decidable (s.IsAlone v) :=
  inferInstanceAs (Decidable (_ ∨ _))

instance (s : Span) (old new : Int) : Decidable (s.IsAbandoned old new) :=
  inferInstanceAs (Decidable (_ ∨ _))

/-- A point that moves down can abandon the high edge only. -/
theorem Span.isAbandoned_of_lt {s : Span} {old new : Int} (h : new < old) :
    s.IsAbandoned old new ↔ old = s.high.line ∧ s.high.pins = 1 := by
  simp [Span.IsAbandoned, h, h.not_gt]

/-- A point that moves up can abandon the low edge only. -/
theorem Span.isAbandoned_of_gt {s : Span} {old new : Int} (h : old < new) :
    s.IsAbandoned old new ↔ old = s.low.line ∧ s.low.pins = 1 := by
  simp [Span.IsAbandoned, h, h.not_gt]

theorem Span.not_isAbandoned_self (s : Span) (v : Int) : ¬ s.IsAbandoned v v := by
  simp [Span.IsAbandoned]

namespace Span.Measures

variable {s s' : Span} {xs : Multiset Int} {v old : Int}

theorem point (v : Int) : (Span.point v).Measures {v} := ⟨.point v, .point v⟩

/-- **There is only one exact span** for given points. -/
theorem unique (h : s.Measures xs) (h' : s'.Measures xs) : s = s' := by
  have hlow := h.low.unique h'.low
  have hhigh := h.high.unique h'.high
  cases s
  cases s'
  simp_all

/-- **A point joins an exact span.** This fails only if the points on an edge cannot be counted any
more. -/
theorem include_eq (h : s.Measures xs) (hfits : s.Fits) (v : Int) :
    ∃ s', s'.Measures (v ::ₘ xs) ∧
      s.include v = if s'.Fits then .ok s' else .error .overflow := by
  have hbelow : decide (v < s.low.line) = true ↔ ¬s.low.line ≤ v := by simp
  have habove : decide (s.high.line < v) = true ↔ ¬s.high.line ≥ v := by simp
  obtain ⟨low, hlow, htakeLow⟩ := h.low.take_eq hbelow hfits.low
  obtain ⟨high, hhigh, htakeHigh⟩ := h.high.take_eq habove hfits.high
  refine ⟨⟨low, high⟩, ⟨hlow, hhigh⟩, ?_⟩
  rw [Span.include, htakeLow]
  by_cases hlowFits : low.Fits
  · rw [if_pos hlowFits, Checked.ok_bind, htakeHigh]
    by_cases hhighFits : high.Fits
    · rw [if_pos hhighFits, if_pos ⟨hlowFits, hhighFits⟩]
      rfl
    · rw [if_neg hhighFits, if_neg fun h => hhighFits h.high]
      rfl
  · rw [if_neg hlowFits, if_neg fun h => hlowFits h.low]
    rfl

/-- **A point leaves an exact span,** unless it is alone on an edge. -/
theorem exclude? (h : s.Measures xs) (hv : v ∈ xs) :
    ∃ o, s.exclude? v = .ok o ∧ (o = none ↔ s.IsAlone v) ∧
      ∀ s' ∈ o, s'.Measures (xs.erase v) := by
  obtain ⟨low?, hlow, hlownone, hlow'⟩ := h.low.leave? hv
  obtain ⟨high?, hhigh, hhighnone, hhigh'⟩ := h.high.leave? hv
  rw [Span.exclude?, hlow, Checked.ok_bind, Span.IsAlone, ← hlownone, ← hhighnone]
  cases low? with
  | none => exact ⟨none, rfl, by simp, by simp⟩
  | some low =>
    dsimp only
    rw [hhigh, Checked.ok_bind]
    cases high? with
    | none => exact ⟨none, rfl, by simp, by simp⟩
    | some high =>
      refine ⟨some ⟨low, high⟩, rfl, by simp, ?_⟩
      rintro s' ⟨⟩
      exact ⟨(hlow' low rfl).2.2, (hhigh' high rfl).2.2⟩

/-- The span of few points fits. -/
theorem fits (h : s.Measures xs) (room : xs.card < Word.size32) : s.Fits :=
  ⟨h.low.fits room, h.high.fits room⟩

/-- **A point of an exact span moves.** This is refused if the point abandons an edge, and else it
fails if the points on an edge cannot be counted any more. -/
theorem shift?_eq (h : s.Measures xs) (hfits : s.Fits) (new : Int) (hold : old ∈ xs) :
    ∃ s', s'.Measures (new ::ₘ xs.erase old) ∧ s.shift? old new =
      if s.IsAbandoned old new then .ok none
      else if s'.Fits then .ok (some s') else .error .overflow := by
  unfold Span.shift?
  rcases lt_trichotomy new old with hlt | rfl | hlt
  · -- towards the low edge, away from the high one
    have hbeyond : decide (new < s.low.line) = true ↔ ¬s.low.line ≤ new := by simp
    obtain ⟨low, high, hlow, hhigh, htake, hleave, hhighFits⟩ :=
      h.low.move h.high hbeyond hold hlt.le hlt.le hlt.ne hfits.low hfits.high
    refine ⟨⟨low, high⟩, ⟨hlow, hhigh⟩, ?_⟩
    simp only [Span.isAbandoned_of_lt hlt, if_pos hlt, hleave, Checked.ok_bind]
    by_cases hlost : old = s.high.line ∧ s.high.pins = 1
    · rw [if_pos hlost, if_pos hlost]
    rw [if_neg hlost, if_neg hlost]
    dsimp only
    rw [htake]
    by_cases hlowFits : low.Fits
    · rw [if_pos hlowFits, if_pos ⟨hlowFits, hhighFits hlost⟩]
      rfl
    · rw [if_neg hlowFits, if_neg fun h => hlowFits h.low]
      rfl
  · refine ⟨s, by rwa [Multiset.cons_erase hold], ?_⟩
    rw [if_neg (lt_irrefl _), if_neg (lt_irrefl _), if_neg (s.not_isAbandoned_self _), if_pos hfits]
  · -- towards the high edge, away from the low one
    have hbeyond : decide (s.high.line < new) = true ↔ ¬s.high.line ≥ new := by simp
    obtain ⟨high, low, hhigh, hlow, htake, hleave, hlowFits⟩ :=
      h.high.move h.low hbeyond hold hlt.le hlt.le hlt.ne' hfits.high hfits.low
    refine ⟨⟨low, high⟩, ⟨hlow, hhigh⟩, ?_⟩
    simp only [Span.isAbandoned_of_gt hlt, if_neg hlt.not_gt, if_pos hlt, hleave, Checked.ok_bind]
    by_cases hlost : old = s.low.line ∧ s.low.pins = 1
    · rw [if_pos hlost, if_pos hlost]
    rw [if_neg hlost, if_neg hlost]
    dsimp only
    rw [htake]
    by_cases hhighFits : high.Fits
    · rw [if_pos hhighFits, if_pos ⟨hlowFits hlost, hhighFits⟩]
      rfl
    · rw [if_neg hhighFits, if_neg fun h => hhighFits h.high]
      rfl

end Span.Measures

/-! ## Both axes -/

/-- The pins on all four edges can be counted. -/
structure EdgeBox.Fits (b : EdgeBox) : Prop where
  x : b.x.Fits
  y : b.y.Fits

instance (b : EdgeBox) : Decidable b.Fits :=
  decidable_of_iff (b.x.Fits ∧ b.y.Fits) ⟨fun h => ⟨h.1, h.2⟩, fun h => ⟨h.x, h.y⟩⟩

/-- The box is exact for the points `pts`. -/
structure EdgeBox.Measures (b : EdgeBox) (pts : Multiset (Int × Int)) : Prop where
  x : b.x.Measures (pts.map Prod.fst)
  y : b.y.Measures (pts.map Prod.snd)

/-- A point is alone on an edge of the box. -/
def EdgeBox.IsAlone (b : EdgeBox) (p : Int × Int) : Prop := b.x.IsAlone p.1 ∨ b.y.IsAlone p.2

/-- A point that moves leaves an edge of the box, away from it, on which it is alone. -/
def EdgeBox.IsAbandoned (b : EdgeBox) (old new : Int × Int) : Prop :=
  b.x.IsAbandoned old.1 new.1 ∨ b.y.IsAbandoned old.2 new.2

instance (b : EdgeBox) (p : Int × Int) : Decidable (b.IsAlone p) :=
  inferInstanceAs (Decidable (_ ∨ _))

instance (b : EdgeBox) (old new : Int × Int) : Decidable (b.IsAbandoned old new) :=
  inferInstanceAs (Decidable (_ ∨ _))

namespace EdgeBox.Measures

variable {b b' : EdgeBox} {pts : Multiset (Int × Int)} {p old : Int × Int}

theorem point (x y : Int) : (EdgeBox.point x y).Measures {(x, y)} := ⟨.point x, .point y⟩

/-- **There is only one exact box** for given points. -/
theorem unique (h : b.Measures pts) (h' : b'.Measures pts) : b = b' := by
  have hx := h.x.unique h'.x
  have hy := h.y.unique h'.y
  cases b
  cases b'
  simp_all

/-- **A pin joins an exact box,** one axis after the other. This fails only if the pins on an edge
cannot be counted any more. -/
theorem include_eq (h : b.Measures pts) (hfits : b.Fits) (p : Int × Int) :
    ∃ b', b'.Measures (p ::ₘ pts) ∧
      b.include p.1 p.2 = if b'.Fits then .ok b' else .error .overflow := by
  obtain ⟨x, hx, hrunx⟩ := h.x.include_eq hfits.x p.1
  obtain ⟨y, hy, hruny⟩ := h.y.include_eq hfits.y p.2
  refine ⟨⟨x, y⟩, ⟨?_, ?_⟩, ?_⟩
  · rwa [Multiset.map_cons]
  · rwa [Multiset.map_cons]
  · rw [EdgeBox.include, hrunx]
    by_cases hxfits : x.Fits
    · rw [if_pos hxfits, Checked.ok_bind, hruny]
      by_cases hyfits : y.Fits
      · rw [if_pos hyfits, if_pos ⟨hxfits, hyfits⟩]
        rfl
      · rw [if_neg hyfits, if_neg fun h => hyfits h.y]
        rfl
    · rw [if_neg hxfits, if_neg fun h => hxfits h.x]
      rfl

/-- The box of few points fits. -/
theorem fits (h : b.Measures pts) (room : pts.card < Word.size32) : b.Fits :=
  ⟨h.x.fits (by rwa [Multiset.card_map]), h.y.fits (by rwa [Multiset.card_map])⟩

/-- A pin joins few points. -/
theorem join (h : b.Measures pts) (room : pts.card + 1 < Word.size32) :
    ∃ b', b.include p.1 p.2 = .ok b' ∧ b'.Measures (p ::ₘ pts) := by
  obtain ⟨b', hb', hrun⟩ := h.include_eq (h.fits (by omega)) p
  exact ⟨b', by rw [hrun, if_pos (hb'.fits (by rwa [Multiset.card_cons]))], hb'⟩

/-- **A pin leaves an exact box,** unless it is alone on an edge. -/
theorem exclude? (h : b.Measures pts) (hp : p ∈ pts) :
    ∃ o, b.exclude? p.1 p.2 = .ok o ∧ (o = none ↔ b.IsAlone p) ∧
      ∀ b' ∈ o, b'.Measures (pts.erase p) := by
  obtain ⟨x?, hx, hxnone, hx'⟩ := h.x.exclude? (Multiset.mem_map_of_mem Prod.fst hp)
  obtain ⟨y?, hy, hynone, hy'⟩ := h.y.exclude? (Multiset.mem_map_of_mem Prod.snd hp)
  rw [EdgeBox.exclude?, hx, Checked.ok_bind, EdgeBox.IsAlone, ← hxnone, ← hynone]
  cases x? with
  | none => exact ⟨none, rfl, by simp, by simp⟩
  | some x =>
    dsimp only
    rw [hy, Checked.ok_bind]
    cases y? with
    | none => exact ⟨none, rfl, by simp, by simp⟩
    | some y =>
      refine ⟨some ⟨x, y⟩, rfl, by simp, ?_⟩
      rintro b' ⟨⟩
      constructor
      · rw [Multiset.map_erase_of_mem _ _ hp]
        exact hx' x rfl
      · rw [Multiset.map_erase_of_mem _ _ hp]
        exact hy' y rfl

/-- **A pin of an exact box moves,** one axis after the other. -/
theorem shift?_eq (h : b.Measures pts) (hfits : b.Fits) (new : Int × Int) (hold : old ∈ pts) :
    ∃ b', b'.Measures (new ::ₘ pts.erase old) ∧ b.shift? old new =
      if b.x.IsAbandoned old.1 new.1 then .ok none
      else if ¬ b'.x.Fits then .error .overflow
      else if b.y.IsAbandoned old.2 new.2 then .ok none
      else if ¬ b'.y.Fits then .error .overflow
      else .ok (some b') := by
  obtain ⟨x, hx, hrunx⟩ := h.x.shift?_eq hfits.x new.1 (Multiset.mem_map_of_mem Prod.fst hold)
  obtain ⟨y, hy, hruny⟩ := h.y.shift?_eq hfits.y new.2 (Multiset.mem_map_of_mem Prod.snd hold)
  refine ⟨⟨x, y⟩, ⟨?_, ?_⟩, ?_⟩
  · rwa [Multiset.map_cons, Multiset.map_erase_of_mem _ _ hold]
  · rwa [Multiset.map_cons, Multiset.map_erase_of_mem _ _ hold]
  · rw [EdgeBox.shift?, hrunx]
    by_cases hleft : b.x.IsAbandoned old.1 new.1
    · rw [if_pos hleft, if_pos hleft]
      rfl
    by_cases hxfits : x.Fits
    · rw [if_neg hleft, if_neg hleft, if_pos hxfits, if_neg (not_not.2 hxfits), Checked.ok_bind]
      dsimp only
      rw [hruny]
      by_cases htop : b.y.IsAbandoned old.2 new.2
      · rw [if_pos htop, if_pos htop]
        rfl
      · rw [if_neg htop, if_neg htop, ite_not]
        split <;> rfl
    · rw [if_neg hleft, if_neg hleft, if_neg hxfits, if_pos hxfits]
      rfl

/-- A pin of few points moves, unless it abandons an edge. -/
theorem shift? (h : b.Measures pts) (new : Int × Int) (hold : old ∈ pts)
    (room : pts.card < Word.size32) :
    ∃ o, b.shift? old new = .ok o ∧ (o = none ↔ b.IsAbandoned old new) ∧
      ∀ b' ∈ o, b'.Measures (new ::ₘ pts.erase old) := by
  obtain ⟨b', hb', hrun⟩ := h.shift?_eq (h.fits room) new hold
  have hcard := Multiset.card_erase_add_one hold
  have hfits := hb'.fits (by rw [Multiset.card_cons]; omega)
  rw [if_neg (not_not.2 hfits.x), if_neg (not_not.2 hfits.y)] at hrun
  unfold EdgeBox.IsAbandoned
  by_cases hleft : b.x.IsAbandoned old.1 new.1
  · rw [if_pos hleft] at hrun
    exact ⟨none, hrun, by simp [hleft], by simp⟩
  by_cases htop : b.y.IsAbandoned old.2 new.2
  · rw [if_neg hleft, if_pos htop] at hrun
    exact ⟨none, hrun, by simp [htop], by simp⟩
  · rw [if_neg hleft, if_neg htop] at hrun
    refine ⟨some b', hrun, by simp [hleft, htop], ?_⟩
    rintro _ ⟨⟩
    exact hb'

end EdgeBox.Measures

/-- **A pin of an exact box moves, however many points there are,** as long as the pins on each edge
of the box can be counted. If those on the edges of the new box can be counted too, the edit yields
the exact box of the points after the move, or it is refused, exactly when the point abandons an
edge. If they cannot be counted, the edit fails or is refused for that reason. -/
theorem EdgeBox.moved_pin_exact {b : EdgeBox} {pts : Multiset (Int × Int)} {old : Int × Int}
    (h : b.Measures pts) (hfits : b.Fits) (hold : old ∈ pts) (new : Int × Int) :
    ∃ b', b'.Measures (new ::ₘ pts.erase old) ∧
      (b'.Fits → b.shift? old new = .ok (if b.IsAbandoned old new then none else some b')) ∧
      (¬ b'.Fits → b.shift? old new = .error .overflow ∨
        b.shift? old new = .ok none ∧ b.IsAbandoned old new) := by
  obtain ⟨b', hb', hrun⟩ := h.shift?_eq hfits new hold
  have habandoned : b.IsAbandoned old new ↔
      b.x.IsAbandoned old.1 new.1 ∨ b.y.IsAbandoned old.2 new.2 := Iff.rfl
  refine ⟨b', hb', fun hnew => ?_, fun hnew => ?_⟩
  · rw [hrun, if_neg (not_not.2 hnew.x), if_neg (not_not.2 hnew.y)]
    by_cases hx : b.x.IsAbandoned old.1 new.1
    · rw [if_pos hx, if_pos (habandoned.2 (.inl hx))]
    · by_cases hy : b.y.IsAbandoned old.2 new.2
      · rw [if_neg hx, if_pos hy, if_pos (habandoned.2 (.inr hy))]
      · rw [if_neg hx, if_neg hy, if_neg fun h => (habandoned.1 h).elim hx hy]
  · by_cases hx : b.x.IsAbandoned old.1 new.1
    · exact .inr ⟨by rw [hrun, if_pos hx], .inl hx⟩
    by_cases hxfits : b'.x.Fits
    · by_cases hy : b.y.IsAbandoned old.2 new.2
      · refine .inr ⟨?_, .inr hy⟩
        rw [hrun, if_neg hx, if_neg (not_not.2 hxfits), if_pos hy]
      · have hyfits : ¬ b'.y.Fits := fun hyfits => hnew ⟨hxfits, hyfits⟩
        refine .inl ?_
        rw [hrun, if_neg hx, if_neg (not_not.2 hxfits), if_neg hy, if_pos hyfits]
    · exact .inl (by rw [hrun, if_neg hx, if_pos hxfits])

/-- Of two points, the one on the left goes further out. -/
theorem EdgeBox.moved_pin_exact_small :
    ∃ b' : EdgeBox, b'.Measures {(-1, 0), (2, 1)} ∧
      EdgeBox.shift? ⟨⟨⟨0, 1⟩, ⟨2, 1⟩⟩, ⟨⟨0, 1⟩, ⟨1, 1⟩⟩⟩ (0, 0) (-1, 0) = .ok (some b') := by
  have hexact : EdgeBox.Measures ⟨⟨⟨0, 1⟩, ⟨2, 1⟩⟩, ⟨⟨0, 1⟩, ⟨1, 1⟩⟩⟩ {(0, 0), (2, 1)} :=
    ⟨⟨⟨by decide, by decide, by decide⟩, ⟨by decide, by decide, by decide⟩⟩,
      ⟨⟨by decide, by decide, by decide⟩, ⟨by decide, by decide, by decide⟩⟩⟩
  have hold : ((0, 0) : Int × Int) ∈ ({(0, 0), (2, 1)} : Multiset (Int × Int)) := by decide
  obtain ⟨b', hb', hyields, -⟩ := moved_pin_exact hexact (by decide) hold (-1, 0)
  refine ⟨b', hb', hyields ?_⟩
  exact hb'.fits (by decide)

namespace Sample

/-- Many points at one place on the left edge, two more on it, one on the right edge, and one
inside. -/
def crowd (k : Nat) : Multiset (Int × Int) :=
  Multiset.replicate k (0, 3) + {(0, 0), (0, 5), (5, 3), (3, 3)}

/-- The box of the crowd. -/
def crowdBox (k : Nat) : EdgeBox := ⟨⟨⟨0, k + 2⟩, ⟨5, 1⟩⟩, ⟨⟨0, 1⟩, ⟨5, 1⟩⟩⟩

theorem measures_crowd (k : Nat) : (crowdBox k).Measures (crowd k) := by
  have hx : (crowd k).map Prod.fst = Multiset.replicate k 0 + {0, 0, 5, 3} := by
    simp [crowd]
  have hy : (crowd k).map Prod.snd = Multiset.replicate k 3 + {0, 5, 3, 3} := by
    simp [crowd]
  have hxs : ∀ x ∈ (crowd k).map Prod.fst, 0 ≤ x ∧ x ≤ 5 := by
    intro x hmem
    rw [hx] at hmem
    simp only [Multiset.mem_add, Multiset.mem_replicate, Multiset.insert_eq_cons,
      Multiset.mem_cons, Multiset.mem_singleton] at hmem
    omega
  have hys : ∀ y ∈ (crowd k).map Prod.snd, 0 ≤ y ∧ y ≤ 5 := by
    intro y hmem
    rw [hy] at hmem
    simp only [Multiset.mem_add, Multiset.mem_replicate, Multiset.insert_eq_cons,
      Multiset.mem_cons, Multiset.mem_singleton] at hmem
    omega
  refine ⟨⟨⟨?_, fun x h => (hxs x h).1, ?_⟩, ⟨?_, fun x h => (hxs x h).2, ?_⟩⟩,
    ⟨⟨?_, fun y h => (hys y h).1, ?_⟩, ⟨?_, fun y h => (hys y h).2, ?_⟩⟩⟩
  · simp [hx, crowdBox]
  · simp [hx, crowdBox]
  · simp [hx, crowdBox]
  · simp [hx, crowdBox, Multiset.count_replicate]
  · simp [hy, crowdBox]
  · simp [hy, crowdBox, Multiset.count_replicate]
  · simp [hy, crowdBox]
  · simp [hy, crowdBox, Multiset.count_replicate]

end Sample

/-- A point may move to an edge whose pins are as many as can be counted. It is not refused then,
and no box comes out. -/
theorem EdgeBox.moved_pin_uncounted :
    (Sample.crowdBox 4294967293).Measures (Sample.crowd 4294967293) ∧
      (Sample.crowdBox 4294967293).Fits ∧ (3, 3) ∈ Sample.crowd 4294967293 ∧
      ¬ (Sample.crowdBox 4294967293).IsAbandoned (3, 3) (0, 3) ∧
      (Sample.crowdBox 4294967293).shift? (3, 3) (0, 3) = .error .overflow := by
  have hinside : (3, 3) ∈ Sample.crowd 4294967293 :=
    Multiset.mem_add.2 (.inr (by decide))
  exact ⟨Sample.measures_crowd _, by decide, hinside, by decide,
    Sample.eq_error_of_faultOf (by decide)⟩

end WireCost
