import WireCost.Proofs.EdgeBox.Exact

/-! # Adding and removing a pin

A pin that joins an exact box can leave it again, and what is left is the box before, as long as the
pin did not push an edge out. A pin that may leave may also move, and moving is leaving and joining.

* **`EdgeBox.HasOnly`** — on some edge there is only one of the points;
  **`EdgeBox.Measures.isAlone_iff`** — that is when the pin counts of a box say so.
* **`EdgeBox.Measures.exclude?_include`** — a pin that has joined leaves again.
* **`EdgeBox.Measures.shift?_eq_include`** — a pin that may leave moves by leaving and joining.
* **`EdgeBox.joining_and_leaving`** — all of it, however many points there are. -/

namespace WireCost

/-! ## One edge -/

namespace Edge.Bounds

variable {r : Int → Int → Prop} {e e' : Edge} {xs : Multiset Int} {v : Int}

/-- **A point is alone on an edge** when it is the only one of the points on that line. -/
theorem alone_iff {ι : Type} {pts : Multiset ι} {f : ι → Int} {p : ι}
    (h : e.Bounds r (pts.map f)) (hp : p ∈ pts) :
    f p = e.line ∧ e.pins = 1 ↔ pts.filter (fun q => f q = e.line) = {p} := by
  have hcount : e.pins = (pts.filter fun q => f q = e.line).card := by
    rw [h.pins, Multiset.count_map]
    simp only [eq_comm]
  constructor
  · rintro ⟨hline, hone⟩
    obtain ⟨q, hq⟩ := Multiset.card_eq_one.1 (hcount.symm.trans hone)
    have hmem : p ∈ pts.filter fun q => f q = e.line := Multiset.mem_filter.2 ⟨hp, hline⟩
    rw [hq] at hmem ⊢
    rw [Multiset.mem_singleton.1 hmem]
  · intro honly
    have hmem : p ∈ pts.filter fun q => f q = e.line := by
      rw [honly]
      exact Multiset.mem_singleton_self p
    exact ⟨(Multiset.mem_filter.1 hmem).2, by rw [hcount, honly, Multiset.card_singleton]⟩

/-- The pins that are left on an edge can be counted if they could be before. -/
theorem fits_erase [IsLinearOrder Int r] (h : e.Bounds r xs) (hv : v ∈ xs)
    (hkept : ¬ (v = e.line ∧ e.pins = 1)) (h' : e'.Bounds r (xs.erase v)) (hfits : e.Fits) :
    e'.Fits := by
  obtain ⟨o, -, hnone, hsome⟩ := h.leave? hv
  cases o with
  | none => exact absurd (hnone.1 rfl) hkept
  | some left =>
    obtain ⟨-, hle, hleft⟩ := hsome left rfl
    rw [h'.unique hleft]
    exact Nat.lt_of_le_of_lt hle hfits

/-- **A point that has joined is alone on an edge** exactly when it came from beyond it. -/
theorem alone_cons_iff [IsLinearOrder Int r] (h : e.Bounds r xs) (h' : e'.Bounds r (v ::ₘ xs)) :
    v = e'.line ∧ e'.pins = 1 ↔ ¬ r e.line v := by
  constructor
  · rintro ⟨hline, hone⟩ hwithin
    -- within the old edge, the new one is at most as far out, so the old points are on it as well
    have hfirst : r v e.line := by
      rw [hline]
      exact h'.first _ (Multiset.mem_cons_of_mem h.mem)
    have hpos : 0 < xs.count v := by
      rw [antisymm hfirst hwithin]
      exact Multiset.count_pos.2 h.mem
    rw [h'.pins, ← hline, Multiset.count_cons_self] at hone
    omega
  · intro hbeyond
    rw [h'.unique (h.cons_beyond (fun _ => id) hbeyond)]
    exact ⟨rfl, rfl⟩

end Edge.Bounds

/-! ## One axis -/

/-- A line is within a span. -/
def Span.Encloses (s : Span) (v : Int) : Prop := s.low.line ≤ v ∧ v ≤ s.high.line

instance (s : Span) (v : Int) : Decidable (s.Encloses v) := inferInstanceAs (Decidable (_ ∧ _))

/-- A point that abandons an edge is alone on it. -/
theorem Span.IsAbandoned.isAlone {s : Span} {old new : Int} (h : s.IsAbandoned old new) :
    s.IsAlone old := by
  obtain ⟨-, hhigh⟩ | ⟨-, hlow⟩ := h
  · exact .inr hhigh
  · exact .inl hlow

namespace Span.Measures

variable {s s' : Span} {xs : Multiset Int} {v : Int}

/-- **A point that has joined is alone on an edge** exactly when it came from outside. -/
theorem isAlone_cons_iff (h : s.Measures xs) (h' : s'.Measures (v ::ₘ xs)) :
    s'.IsAlone v ↔ ¬ s.Encloses v := by
  rw [Span.IsAlone, h.low.alone_cons_iff h'.low, h.high.alone_cons_iff h'.high, Span.Encloses,
    not_and_or]

/-- The pins that are left can be counted if they could be before. -/
theorem fits_erase (h : s.Measures xs) (hv : v ∈ xs) (hkept : ¬ s.IsAlone v)
    (h' : s'.Measures (xs.erase v)) (hfits : s.Fits) : s'.Fits :=
  ⟨h.low.fits_erase hv (fun halone => hkept (.inl halone)) h'.low hfits.low,
    h.high.fits_erase hv (fun halone => hkept (.inr halone)) h'.high hfits.high⟩

end Span.Measures

/-! ## Both axes -/

namespace EdgeBox

/-- A point is within the extents of a box. -/
def Encloses (b : EdgeBox) (p : Int × Int) : Prop := b.x.Encloses p.1 ∧ b.y.Encloses p.2

instance (b : EdgeBox) (p : Int × Int) : Decidable (b.Encloses p) :=
  inferInstanceAs (Decidable (_ ∧ _))

/-- **On some edge of the box there is only one of the points,** and that is `p`. -/
def HasOnly (b : EdgeBox) (pts : Multiset (Int × Int)) (p : Int × Int) : Prop :=
  pts.filter (fun q => q.1 = b.x.low.line) = {p} ∨ pts.filter (fun q => q.1 = b.x.high.line) = {p} ∨
    pts.filter (fun q => q.2 = b.y.low.line) = {p} ∨ pts.filter (fun q => q.2 = b.y.high.line) = {p}

namespace Measures

variable {b b' rest : EdgeBox} {pts : Multiset (Int × Int)} {p old : Int × Int}

/-- **The pin counts of an exact box** tell which points are alone on an edge. -/
theorem isAlone_iff (h : b.Measures pts) (hp : p ∈ pts) : b.IsAlone p ↔ b.HasOnly pts p := by
  rw [IsAlone, Span.IsAlone, Span.IsAlone, h.x.low.alone_iff hp, h.x.high.alone_iff hp,
    h.y.low.alone_iff hp, h.y.high.alone_iff hp, or_assoc]
  rfl

/-- The pins that are left can be counted if they could be before. -/
theorem fits_erase (h : b.Measures pts) (hp : p ∈ pts) (hkept : ¬ b.IsAlone p)
    (h' : rest.Measures (pts.erase p)) (hfits : b.Fits) : rest.Fits := by
  obtain ⟨hx, hy⟩ := h'
  obtain ⟨hkeptx, hkepty⟩ := not_or.1 hkept
  rw [Multiset.map_erase_of_mem _ _ hp] at hx hy
  exact ⟨h.x.fits_erase (Multiset.mem_map_of_mem _ hp) hkeptx hx hfits.x,
    h.y.fits_erase (Multiset.mem_map_of_mem _ hp) hkepty hy hfits.y⟩

/-- **A pin that has joined leaves again,** and the box before comes back, unless the pin came from
outside. -/
theorem exclude?_include (h : b.Measures pts) (hfits : b.Fits)
    (hjoin : b.include p.1 p.2 = .ok b') :
    b'.exclude? p.1 p.2 = .ok (if b.Encloses p then some b else none) := by
  obtain ⟨joined, hjoined, hrun⟩ := h.include_eq hfits p
  obtain rfl : joined = b' := by
    rw [hrun] at hjoin
    split at hjoin
    · exact Except.ok.inj hjoin
    · cases hjoin
  have halone : joined.IsAlone p ↔ ¬ b.Encloses p := by
    obtain ⟨hx, hy⟩ := hjoined
    rw [Multiset.map_cons] at hx hy
    rw [IsAlone, h.x.isAlone_cons_iff hx, h.y.isAlone_cons_iff hy, Encloses, not_and_or]
  obtain ⟨o, ho, hnone, hsome⟩ := hjoined.exclude? (Multiset.mem_cons_self p pts)
  rw [ho]
  cases o with
  | none => rw [if_neg (halone.1 (hnone.1 rfl))]
  | some left =>
    have hinside : b.Encloses p := by
      by_contra houtside
      cases hnone.2 (halone.2 houtside)
    have hleft := hsome left rfl
    rw [Multiset.erase_cons_head] at hleft
    rw [if_pos hinside, hleft.unique h]

/-- **A pin that may leave moves by leaving and joining.** -/
theorem shift?_eq_include (h : b.Measures pts) (hfits : b.Fits) (hold : old ∈ pts)
    (hleave : b.exclude? old.1 old.2 = .ok (some rest)) (new : Int × Int) :
    b.shift? old new = Except.map some (rest.include new.1 new.2) := by
  obtain ⟨o, ho, hnone, hsome⟩ := h.exclude? hold
  obtain rfl : o = some rest := Except.ok.inj (ho.symm.trans hleave)
  have hkept : ¬ b.IsAlone old := mt hnone.2 (Option.some_ne_none rest)
  have hrest := hsome rest rfl
  -- both runs come to the exact box of the same points
  obtain ⟨moved, hmoved, hshift⟩ := h.shift?_eq hfits new hold
  obtain ⟨joined, hjoined, hinclude⟩ :=
    hrest.include_eq (h.fits_erase hold hkept hrest hfits) new
  obtain rfl := hmoved.unique hjoined
  have hleft : ¬ b.x.IsAbandoned old.1 new.1 := fun hleft => hkept (.inl hleft.isAlone)
  have htop : ¬ b.y.IsAbandoned old.2 new.2 := fun htop => hkept (.inr htop.isAlone)
  rw [hshift, hinclude, if_neg hleft]
  by_cases hx : moved.x.Fits
  · rw [if_neg (not_not.2 hx), if_neg htop]
    by_cases hy : moved.y.Fits
    · rw [if_neg (not_not.2 hy), if_pos ⟨hx, hy⟩]
      rfl
    · rw [if_pos hy, if_neg fun hmoved => hy hmoved.y]
      rfl
  · rw [if_pos hx, if_neg fun hmoved => hx hmoved.x]
    rfl

end Measures

/-- **Joining and leaving are exact, and each other's inverses where there is one.** For every exact
box whose pins can be counted, however many points there are: a pin that joins yields the exact box
of the points with the pin, unless those on an edge cannot be counted any more. A pin of the box
that leaves is refused exactly when it is the only point on some edge, and otherwise yields the
exact box of the other points. A pin that has joined leaves the box before when it leaves again, or
it is refused, exactly when it came from outside. Where a pin may leave, moving it is leaving and
joining. -/
theorem joining_and_leaving {b : EdgeBox} {pts : Multiset (Int × Int)} (h : b.Measures pts)
    (hfits : b.Fits) :
    (∀ p, ∃ b', b'.Measures (p ::ₘ pts) ∧
      b.include p.1 p.2 = if b'.Fits then .ok b' else .error .overflow) ∧
    (∀ p ∈ pts, ∃ o, b.exclude? p.1 p.2 = .ok o ∧ (o = none ↔ b.HasOnly pts p) ∧
      ∀ b' ∈ o, b'.Measures (pts.erase p)) ∧
    (∀ p b', b.include p.1 p.2 = .ok b' →
      b'.exclude? p.1 p.2 = .ok (if b.Encloses p then some b else none)) ∧
    ∀ old ∈ pts, ∀ rest, b.exclude? old.1 old.2 = .ok (some rest) → ∀ new,
      b.shift? old new = Except.map some (rest.include new.1 new.2) := by
  refine ⟨h.include_eq hfits, fun p hp => ?_, fun p b' => h.exclude?_include hfits, ?_⟩
  · obtain ⟨o, ho, hnone, hsome⟩ := h.exclude? hp
    exact ⟨o, ho, hnone.trans (h.isAlone_iff hp), hsome⟩
  · exact fun old hold rest hleave new => h.shift?_eq_include hfits hold hleave new

/-- Of two points at one place and one more, the third may not leave. A fourth joins outside and may
not leave again. One of the two goes to the third as if it left and joined. -/
theorem joining_and_leaving_small :
    exclude? ⟨⟨⟨0, 2⟩, ⟨2, 1⟩⟩, ⟨⟨0, 2⟩, ⟨1, 1⟩⟩⟩ 2 1 = .ok none ∧
    exclude? ⟨⟨⟨0, 2⟩, ⟨5, 1⟩⟩, ⟨⟨0, 2⟩, ⟨1, 2⟩⟩⟩ 5 1 = .ok none ∧
    shift? ⟨⟨⟨0, 2⟩, ⟨2, 1⟩⟩, ⟨⟨0, 2⟩, ⟨1, 1⟩⟩⟩ (0, 0) (2, 1) =
      .ok (some ⟨⟨⟨0, 1⟩, ⟨2, 2⟩⟩, ⟨⟨0, 1⟩, ⟨1, 2⟩⟩⟩) := by
  have hexact : Measures ⟨⟨⟨0, 2⟩, ⟨2, 1⟩⟩, ⟨⟨0, 2⟩, ⟨1, 1⟩⟩⟩ {(0, 0), (0, 0), (2, 1)} :=
    ⟨⟨⟨by decide, by decide, by decide⟩, ⟨by decide, by decide, by decide⟩⟩,
      ⟨⟨by decide, by decide, by decide⟩, ⟨by decide, by decide, by decide⟩⟩⟩
  obtain ⟨-, hleave, hundo, hmove⟩ := joining_and_leaving hexact (by decide)
  refine ⟨?_, hundo (5, 1) _ rfl, hmove (0, 0) (by decide) _ rfl (2, 1)⟩
  obtain ⟨o, ho, hnone, -⟩ := hleave (2, 1) (by decide)
  rw [← hnone.2 (.inr (.inl (by decide)))]
  exact ho

/-- A point may join an edge whose pins are as many as can be counted. No box comes out. -/
theorem joined_pin_uncounted :
    (Sample.crowdBox 4294967293).Measures (Sample.crowd 4294967293) ∧
      (Sample.crowdBox 4294967293).Fits ∧
      (Sample.crowdBox 4294967293).include 0 3 = .error .overflow :=
  ⟨Sample.measures_crowd _, by decide, Sample.eq_error_of_faultOf (by decide)⟩

end EdgeBox

end WireCost
