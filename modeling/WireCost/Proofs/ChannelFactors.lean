import Mathlib.Algebra.Group.Nat.Even
import Mathlib.Tactic.Ring
import WireCost.ChannelFactors
import WireCost.Proofs.Checked

/-! # Tables over spans

* **`SpanTable.offset_lt_offset_iff`** — places follow the order of the spans, so that no two spans
  share a place.
* **`SpanTable.IsFull`** — a table has a number for every span.
* **`SpanTable.exists_get`** — looking up a span of such a table succeeds.
* **`SpanTable.Holds.exists_put`** — what a table holds after the number of one span is replaced.
* **`SpanTable.exists_totals`** — the first pass leaves the track total of every span.
* **`SpanTable.exists_ofTracks`** — the second pass leaves the factor of every span, and notes the
  spans without tracks.
* **`ChannelFactors.exists_ofDevice`** — a device has factors if there is room for the tables.
* **`ChannelFactors.isFull_ofDevice`** — the tables of a device are full.
* **`ChannelFactors.lt_of_requireRoom`** — where there is room, the channels are words. -/

namespace WireCost

variable {α : Type}

namespace SpanTable

/-! ## Places -/

/-- The place of a span, counted twice over. -/
theorem two_mul_offset (high low : Nat) : 2 * offset high low = high * (high + 1) + 2 * low := by
  -- doubling undoes the halving of a triangular number
  have heven := Nat.two_mul_div_two_of_even (Nat.even_mul_succ_self high)
  rw [offset, Nat.mul_add]
  exact congrArg (· + 2 * low) heven

/-- The places of a row follow one another. -/
theorem offset_succ (high low : Nat) : offset high (low + 1) = offset high low + 1 := rfl

/-- A row starts where the row above ends. -/
theorem offset_succ_zero (high : Nat) : offset (high + 1) 0 = offset high (high + 1) := by
  have hnext := two_mul_offset (high + 1) 0
  have hend := two_mul_offset high (high + 1)
  have hrow : (high + 1) * (high + 1 + 1) = high * (high + 1) + 2 * (high + 1) := by ring
  omega

/-- Later rows start later. -/
theorem offset_mono {high high' : Nat} (h : high ≤ high') : offset high 0 ≤ offset high' 0 := by
  have hplace := two_mul_offset high 0
  have hplace' := two_mul_offset high' 0
  have hrows : high * (high + 1) ≤ high' * (high' + 1) := Nat.mul_le_mul h (Nat.succ_le_succ h)
  omega

/-- A row ends before later rows start. -/
theorem offset_lt_of_lt {high high' low : Nat} (hlow : low ≤ high) (h : high < high') (low' : Nat) :
    offset high low < offset high' low' := by
  calc offset high low < offset high (high + 1) := Nat.add_lt_add_left (Nat.lt_succ_of_le hlow) _
    _ = offset (high + 1) 0 := (offset_succ_zero high).symm
    _ ≤ offset high' 0 := offset_mono h
    _ ≤ offset high' low' := Nat.le_add_right _ _

/-- **Places follow the order of the spans:** by the end, then by the start. -/
theorem offset_lt_offset_iff {high low high' low' : Nat} (hlow : low ≤ high)
    (hlow' : low' ≤ high') :
    offset high low < offset high' low' ↔ high < high' ∨ high = high' ∧ low < low' := by
  rcases Nat.lt_trichotomy high high' with h | rfl | h
  · exact iff_of_true (offset_lt_of_lt hlow h low') (.inl h)
  · unfold offset
    omega
  · have hplace := offset_lt_of_lt hlow' h low
    omega

/-- **No two spans share a place.** -/
theorem offset_inj {high low high' low' : Nat} (hlow : low ≤ high) (hlow' : low' ≤ high') :
    offset high low = offset high' low' ↔ high = high' ∧ low = low' := by
  have hlt := offset_lt_offset_iff hlow hlow'
  have hgt := offset_lt_offset_iff hlow' hlow
  omega

/-! ## Full tables -/

/-- The table has one number for every span: as many as there are pairs `low ≤ high < size`. -/
def IsFull (t : SpanTable α) : Prop := 2 * t.values.size = t.size * (t.size + 1)

/-- The place of a span is in a full table. -/
theorem IsFull.offset_lt {t : SpanTable α} (h : t.IsFull) {high low : Nat} (hlow : low ≤ high)
    (hhigh : high < t.size) : offset high low < t.values.size := by
  have hend := two_mul_offset t.size 0
  have hplace := offset_lt_of_lt hlow hhigh 0
  have hfull : 2 * t.values.size = t.size * (t.size + 1) := h
  omega

/-- **Every span is found** in a full table. -/
theorem exists_get {t : SpanTable α} (h : t.IsFull) {high low : Nat} (hlow : low ≤ high)
    (hhigh : high < t.size) : ∃ v, t.get high low = .ok v := by
  exact ⟨_, by rw [get, require_of ⟨hlow, hhigh⟩, Checked.ok_bind, slot,
    entry_of_some (Array.getElem?_eq_getElem (h.offset_lt hlow hhigh))]⟩

/-- A full table of a size that holds `v high low` for every span for which `done` is said. -/
structure Holds (n : Nat) (done : Nat → Nat → Prop) (v : Nat → Nat → α) (t : SpanTable α) :
    Prop where
  full : t.IsFull
  size : t.size = n
  slot : ∀ high low, low ≤ high → high < n → done high low → t.slot high low = .ok (v high low)

/-- What the table holds is what is looked up. -/
theorem Holds.get {size : Nat} {v : Nat → Nat → α} {t : SpanTable α} {done : Nat → Nat → Prop}
    (h : t.Holds size done v) {high low : Nat} (hlow : low ≤ high) (hhigh : high < size)
    (hdone : done high low) : t.get high low = .ok (v high low) := by
  have hinside : high < t.size := by rwa [h.size]
  rw [SpanTable.get, require_of ⟨hlow, hinside⟩, Checked.ok_bind]
  exact h.slot high low hlow hhigh hdone

/-- **The number of one span is replaced,** and the others stay. -/
theorem Holds.exists_put {size : Nat} {done : Nat → Nat → Prop} {v : Nat → Nat → α}
    {t : SpanTable α} (h : t.Holds size done v) (done' : Nat → Nat → Prop) (v' : Nat → Nat → α)
    {high low : Nat} (hlow : low ≤ high) (hhigh : high < size)
    (hkeep : ∀ high' low', low' ≤ high' → high' < size → done' high' low' →
      ¬ (high' = high ∧ low' = low) → done high' low' ∧ v' high' low' = v high' low') :
    ∃ t', t.put high low (v' high low) = .ok t' ∧ t'.Holds size done' v' := by
  have hplace : offset high low < t.values.size := h.full.offset_lt hlow (by rwa [h.size])
  refine ⟨{ t with values := t.values.setIfInBounds (offset high low) (v' high low) },
    by rw [put, require_of hplace, Checked.ok_bind], ?_, h.size, ?_⟩
  · have hfull : 2 * t.values.size = t.size * (t.size + 1) := h.full
    simpa [IsFull] using hfull
  intro high' low' hlow' hhigh' hdone
  by_cases hsame : high' = high ∧ low' = low
  · obtain ⟨rfl, rfl⟩ := hsame
    exact entry_of_some (Array.getElem?_setIfInBounds_self_of_lt hplace)
  · obtain ⟨hbefore, hv⟩ := hkeep high' low' hlow' hhigh' hdone hsame
    have hapart : offset high low ≠ offset high' low' := fun heq =>
      hsame ((offset_inj hlow' hlow).1 heq.symm)
    refine entry_of_some ?_
    rw [Array.getElem?_setIfInBounds_ne hapart, hv]
    exact entry_eq_ok.1 (h.slot high' low' hlow' hhigh' hbefore)

end SpanTable

variable [CostScalar α]

/-! ## Track totals -/

/-- The terms of a list, added from left to right to the first one. -/
def total : List α → α
  | [] => zero
  | first :: rest => rest.foldl (· + ·) first

/-- The last term is added last. -/
theorem total_concat {terms : List α} (h : terms ≠ []) (last : α) :
    total (terms ++ [last]) = total terms + last := by
  cases terms with
  | nil => exact absurd rfl h
  | cons first rest => simp [total]

/-- The tracks of the channels `low..=high`, added from left to right. -/
def trackTotal (tracks : Nat → Nat) (high low : Nat) : α :=
  total ((List.range' low (high + 1 - low)).map fun channel => ofCount (tracks channel))

theorem trackTotal_self (tracks : Nat → Nat) (high : Nat) :
    trackTotal tracks high high = (ofCount (tracks high) : α) := by
  simp [trackTotal, total]

/-- One more channel adds its tracks. -/
theorem trackTotal_succ (tracks : Nat → Nat) {high low : Nat} (h : low ≤ high) :
    trackTotal tracks (high + 1) low =
      (trackTotal tracks high low + ofCount (tracks (high + 1)) : α) := by
  have hcount : high + 1 + 1 - low = high + 1 - low + 1 := by omega
  have hlast : low + (high + 1 - low) = high + 1 := by omega
  have hsome : (List.range' low (high + 1 - low)).map
      (fun channel => (ofCount (tracks channel) : α)) ≠ [] := by
    simp
    omega
  rw [trackTotal, hcount, List.range'_1_concat, List.map_append, hlast]
  exact total_concat hsome _

/-! ## The first pass -/

namespace SpanTable

variable {tracks : Nat → Nat} {size : Nat}

theorem isFull_blank (size : Nat) : (blank size : SpanTable α).IsFull := by
  have heven := Nat.two_mul_div_two_of_even (Nat.even_mul_succ_self size)
  simpa [IsFull, blank] using heven

/-- The spans before a place, and the span of the last channel of a row alone. -/
def RowDone (high low : Nat) (high' low' : Nat) : Prop :=
  offset high' low' < offset high low ∨ high' = high ∧ low' = high

/-- **One row of totals** is added to those of the rows above. -/
theorem exists_putRow {t : SpanTable α} {high : Nat} (hhigh : high < size)
    (h : t.Holds size (fun high' low' => offset high' low' < offset high 0) (trackTotal tracks)) :
    ∃ t', putRow ((List.range size).map fun channel => ofCount (tracks channel)) t high = .ok t' ∧
      t'.Holds size (fun high' low' => offset high' low' < offset (high + 1) 0)
        (trackTotal tracks) := by
  have hentry : entry ((List.range size).map fun channel => (ofCount (tracks channel) : α)) high =
      .ok (ofCount (tracks high)) := entry_of_some (by simp [hhigh])
  obtain ⟨t₁, hput, h₁⟩ := h.exists_put (RowDone high 0) (trackTotal tracks)
    (Nat.le_refl high) hhigh fun high' low' _ _ hdone hother =>
      ⟨hdone.resolve_right hother, rfl⟩
  rw [trackTotal_self] at hput
  -- the totals of the row above are there, and the loop adds those of this row from the left
  obtain ⟨t₂, hloop, h₂⟩ := Checked.foldlM_range_progress
    (f := putTotal (ofCount (tracks high)) high) (n := high) (b := t₁)
    (fun low t => t.Holds size (RowDone high low) (trackTotal tracks)) h₁ fun low s hlow hs => by
      obtain ⟨above, rfl⟩ : ∃ above, high = above + 1 := ⟨high - 1, by omega⟩
      have hle : low ≤ above := Nat.lt_succ_iff.1 hlow
      have hbefore : RowDone (above + 1) low above low :=
        .inl (offset_lt_of_lt hle (Nat.lt_succ_self above) low)
      obtain ⟨s', hput, hs'⟩ := hs.exists_put (RowDone (above + 1) (low + 1))
        (trackTotal tracks) (Nat.le_of_lt hlow) hhigh
        fun high' low' hlow' _ hdone hother => by
          refine ⟨hdone.imp_left fun hplace => ?_, rfl⟩
          rw [offset_succ, Nat.lt_succ_iff, Nat.le_iff_lt_or_eq] at hplace
          exact hplace.resolve_right fun heq => hother ((offset_inj hlow' hlow.le).1 heq)
      refine ⟨s', ?_, hs'⟩
      rw [putTotal, Nat.add_sub_cancel, hs.slot above low hle (by omega) hbefore, Checked.ok_bind,
        ← trackTotal_succ tracks hle]
      exact hput
  refine ⟨t₂, ?_, h₂.full, h₂.size, fun high' low' hlow' hhigh' hdone => ?_⟩
  · rw [putRow, hentry, Checked.ok_bind, hput, Checked.ok_bind, hloop]
  · refine h₂.slot high' low' hlow' hhigh' ?_
    rw [offset_succ_zero, offset_succ, Nat.lt_succ_iff, Nat.le_iff_lt_or_eq] at hdone
    exact hdone.imp_right (offset_inj hlow' (Nat.le_refl high)).1

/-- **The first pass** leaves the track total of every span. -/
theorem exists_totals (tracks : Nat → Nat) (size : Nat) :
    ∃ t : SpanTable α,
      totals ((List.range size).map fun channel => ofCount (tracks channel)) = .ok t ∧
      t.Holds size (fun _ _ => True) (trackTotal tracks) := by
  have hblank : (blank size : SpanTable α).Holds size
      (fun high low => offset high low < offset 0 0) (trackTotal tracks) :=
    ⟨isFull_blank size, rfl, fun _ _ _ _ hnone => absurd hnone (Nat.not_lt_zero _)⟩
  obtain ⟨t, hloop, ht⟩ := Checked.foldlM_range_progress
    (f := putRow ((List.range size).map fun channel => ofCount (tracks channel))) (n := size)
    (fun high t => t.Holds size (fun high' low' => offset high' low' < offset high 0)
      (trackTotal tracks)) hblank fun high s hhigh hs => exists_putRow hhigh hs
  refine ⟨t, ?_, ht.full, ht.size, fun high low hlow hhigh _ => ?_⟩
  · rw [totals, List.length_map, List.length_range, hloop]
  · exact ht.slot high low hlow hhigh (offset_lt_of_lt hlow hhigh 0)

/-! ## The second pass -/

/-- The factor of the channels `low..=high`. -/
def trackFactor (exponent : α) (tracks : Nat → Nat) (high low : Nat) : α :=
  spanFactor exponent (high - low + 1) (trackTotal tracks high low)

/-- What stands in the table and in the list when all spans before a place are converted. -/
structure Converted (axis : ChannelAxis) (exponent : α) (tracks : Nat → Nat) (size place : Nat)
    (s : SpanTable α × Array BareSpan) : Prop where
  table : s.1.Holds size (fun _ _ => True) fun high low =>
    if offset high low < place then trackFactor exponent tracks high low
    else trackTotal tracks high low
  noted : ∀ b, b ∈ s.2 ↔ b.axis = axis ∧ b.low ≤ b.high ∧ b.high < size ∧
    offset b.high b.low < place ∧ (trackTotal tracks b.high b.low == (zero : α)) = true
  ordered : s.2.toList.Pairwise fun a b => offset a.high a.low < offset b.high b.low

variable {axis : ChannelAxis} {exponent : α}

/-- **One span is converted.** Its own total is still there. -/
theorem Converted.exists_convert {s : SpanTable α × Array BareSpan} {high low : Nat}
    (hlow : low ≤ high) (hhigh : high < size)
    (h : Converted axis exponent tracks size (offset high low) s) :
    ∃ s', convert axis exponent high s low = .ok s' ∧
      Converted axis exponent tracks size (offset high (low + 1)) s' := by
  have hslot := h.table.slot high low hlow hhigh trivial
  rw [if_neg (Nat.lt_irrefl _)] at hslot
  obtain ⟨t, hput, ht⟩ := h.table.exists_put (fun _ _ => True)
    (fun high' low' => if offset high' low' < offset high (low + 1)
      then trackFactor exponent tracks high' low' else trackTotal tracks high' low') hlow hhigh
    fun high' low' hlow' _ _ hother => by
      have hplace : offset high' low' ≠ offset high low := fun heq =>
        hother ((offset_inj hlow' hlow).1 heq)
      have hiff : offset high' low' < offset high (low + 1) ↔
          offset high' low' < offset high low := by
        rw [offset_succ]
        omega
      simp only [hiff, and_self]
  rw [offset_succ, if_pos (Nat.lt_succ_self _)] at hput
  refine ⟨(t, if trackTotal tracks high low == (zero : α) then s.2.push ⟨axis, low, high⟩ else s.2),
    ?_, ht, fun b => ?_, ?_⟩
  · rw [convert, hslot, Checked.ok_bind]
    exact congrArg (· >>= _) hput
  · have hb : b.low ≤ b.high → (offset b.high b.low = offset high low ↔
        b.high = high ∧ b.low = low) := fun hle => offset_inj hle hlow
    have hnoted := h.noted b
    have hself : b = ⟨axis, low, high⟩ ↔ b.axis = axis ∧ b.low = low ∧ b.high = high := by
      cases b
      simp
    rw [offset_succ]
    split
    · rw [Array.mem_push, hnoted, hself]
      grind
    · rw [hnoted]
      grind
  · split
    · rw [Array.toList_push, List.pairwise_append]
      refine ⟨h.ordered, List.pairwise_singleton _ _, fun a ha b hb => ?_⟩
      obtain rfl := List.mem_singleton.1 hb
      exact ((h.noted a).1 (Array.mem_toList_iff.1 ha)).2.2.2.1
    · exact h.ordered

/-- **One row is converted.** -/
theorem Converted.exists_convertRow {s : SpanTable α × Array BareSpan} {high : Nat}
    (hhigh : high < size) (h : Converted axis exponent tracks size (offset high 0) s) :
    ∃ s', convertRow axis exponent s high = .ok s' ∧
      Converted axis exponent tracks size (offset (high + 1) 0) s' := by
  rw [convertRow, offset_succ_zero]
  exact Checked.foldlM_range_progress
    (fun low s => Converted axis exponent tracks size (offset high low) s) h
    fun low s hlow hs => hs.exists_convert (Nat.lt_succ_iff.1 hlow) hhigh

/-- **The spans along one axis that have no tracks,** by their ends and then by their starts. -/
structure ListsBare (α : Type) [CostScalar α] (axis : ChannelAxis) (tracks : Nat → Nat)
    (channels : Nat) (bare : List BareSpan) : Prop where
  mem : ∀ b, b ∈ bare ↔ b.axis = axis ∧ b.low ≤ b.high ∧ b.high < channels ∧
    (trackTotal tracks b.high b.low == (zero : α)) = true
  ordered : bare.Pairwise fun a b => a.high < b.high ∨ a.high = b.high ∧ a.low < b.low

/-- None of them is listed twice. -/
theorem ListsBare.nodup {bare : List BareSpan} (h : ListsBare α axis tracks size bare) :
    bare.Nodup := by
  refine h.ordered.imp ?_
  rintro a _ hbefore rfl
  omega

/-- **The factors along one axis** can be told: every span has its factor, and the spans without
tracks are noted in the order of the table. -/
theorem exists_ofTracks (axis : ChannelAxis) (exponent : α) (tracks : Nat → Nat) (size : Nat) :
    ∃ t bare, ofTracks axis exponent ((List.range size).map tracks) = .ok (t, bare) ∧
      t.Holds size (fun _ _ => True) (trackFactor exponent tracks) ∧
      ListsBare α axis tracks size bare := by
  obtain ⟨t₁, htotals, h₁⟩ := exists_totals (α := α) tracks size
  have hstart : Converted axis exponent tracks size (offset 0 0) (t₁, #[]) :=
    ⟨⟨h₁.full, h₁.size, fun high low hlow hhigh hdone => by
      simpa [offset] using h₁.slot high low hlow hhigh hdone⟩, by simp [offset], by simp⟩
  obtain ⟨⟨t₂, bare⟩, hloop, h₂⟩ := Checked.foldlM_range_progress
    (f := convertRow axis exponent) (n := size)
    (fun high s => Converted axis exponent tracks size (offset high 0) s) hstart
    fun high s hhigh hs => hs.exists_convertRow hhigh
  -- the place after the last row comes after all spans
  have hend : ∀ {high low : Nat}, low ≤ high → high < size → offset high low < offset size 0 :=
    fun hlow hhigh => offset_lt_of_lt hlow hhigh 0
  refine ⟨t₂, bare.toList, ?_, ⟨h₂.table.full, h₂.table.size, fun high low hlow hhigh hdone => ?_⟩,
    ⟨fun b => ?_, ?_⟩⟩
  · rw [ofTracks, List.map_map, List.length_map, List.length_range, Function.comp_def, htotals,
      Checked.ok_bind, hloop, Checked.ok_bind]
  · rw [h₂.table.slot high low hlow hhigh hdone, if_pos (hend hlow hhigh)]
  · rw [Array.mem_toList_iff, h₂.noted b]
    grind
  · refine h₂.ordered.imp_of_mem fun {a b} ha hb hplace => ?_
    have hlow := ((h₂.noted a).1 (Array.mem_toList_iff.1 ha)).2.1
    have hlow' := ((h₂.noted b).1 (Array.mem_toList_iff.1 hb)).2.1
    exact (offset_lt_offset_iff hlow hlow').1 hplace

end SpanTable

/-! ## Both axes -/

namespace ChannelFactors

/-- Channels whose spans can be told are fewer than a signed word of 32 bits can count. -/
theorem lt_of_requireRoom {channels : Nat} (h : requireRoom channels = .ok ()) :
    channels < Word.size31 := by
  simp only [requireRoom, Checked.bind_eq_ok, Word.requireRoom_eq_ok, Word.nat64_eq_ok] at h
  obtain ⟨-, -, _, ⟨-, rfl⟩, hbytes⟩ := h
  by_contra hle
  have hsquare : Word.size31 * Word.size31 ≤ channels * (channels + 1) :=
    Nat.mul_le_mul (Nat.not_lt.1 hle) (by omega)
  simp only [Word.size31, Word.size63] at hbytes hsquare
  omega

variable {d : Device} {exponent : α} {f : ChannelFactors α} {bare : List BareSpan}

/-- The parts that the factors of a device are put together from. -/
theorem ofDevice_eq_ok : ofDevice d exponent = .ok (f, bare) ↔
    requireRoom d.height.toNat = .ok () ∧ requireRoom d.width.toNat = .ok () ∧
    ∃ bareRows bareColumns,
      SpanTable.ofTracks .horizontal exponent ((List.range d.height.toNat).map d.tracksOfRow) =
        .ok (f.x, bareRows) ∧
      SpanTable.ofTracks .vertical exponent ((List.range d.width.toNat).map d.tracksOfColumn) =
        .ok (f.y, bareColumns) ∧
      bare = bareRows ++ bareColumns := by
  simp only [ofDevice, Checked.bind_eq_ok]
  constructor
  · rintro ⟨⟨⟩, hheight, ⟨⟩, hwidth, ⟨x, bareRows⟩, hx, ⟨y, bareColumns⟩, hy, h⟩
    cases h
    exact ⟨hheight, hwidth, bareRows, bareColumns, hx, hy, rfl⟩
  · rintro ⟨hheight, hwidth, bareRows, bareColumns, hx, hy, rfl⟩
    exact ⟨(), hheight, (), hwidth, _, hx, _, hy, rfl⟩

/-- **The channel factors of a device** can be told if there is room for their tables. -/
theorem exists_ofDevice {d : Device} (exponent : α)
    (hheight : requireRoom d.height.toNat = .ok ()) (hwidth : requireRoom d.width.toNat = .ok ()) :
    ∃ f bare, ofDevice d exponent = .ok (f, bare) := by
  obtain ⟨x, bareRows, hx, -⟩ :=
    SpanTable.exists_ofTracks .horizontal exponent d.tracksOfRow d.height.toNat
  obtain ⟨y, bareColumns, hy, -⟩ :=
    SpanTable.exists_ofTracks .vertical exponent d.tracksOfColumn d.width.toNat
  exact ⟨⟨x, y⟩, _, ofDevice_eq_ok.2 ⟨hheight, hwidth, bareRows, bareColumns, hx, hy, rfl⟩⟩

/-- **The tables of a device are full,** one over its rows and one over its columns. -/
theorem isFull_ofDevice (h : ofDevice d exponent = .ok (f, bare)) :
    (f.x.IsFull ∧ f.x.size = d.height.toNat) ∧ f.y.IsFull ∧ f.y.size = d.width.toNat := by
  obtain ⟨-, -, bareRows, bareColumns, hx, hy, -⟩ := ofDevice_eq_ok.1 h
  obtain ⟨x, _, hx', htableX, -⟩ :=
    SpanTable.exists_ofTracks .horizontal exponent d.tracksOfRow d.height.toNat
  obtain ⟨y, _, hy', htableY, -⟩ :=
    SpanTable.exists_ofTracks .vertical exponent d.tracksOfColumn d.width.toNat
  cases hx.symm.trans hx'
  cases hy.symm.trans hy'
  exact ⟨⟨htableX.full, htableX.size⟩, htableY.full, htableY.size⟩

end ChannelFactors

end WireCost
