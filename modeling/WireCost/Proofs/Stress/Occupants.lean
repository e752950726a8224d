import WireCost.Proofs.Netlist.Relocate
import WireCost.Proofs.Stress.Target

/-! # Who sits where

A proposer keeps an index of the blocks by their locations. It agrees with the placement from the
start on, and whenever a move is accepted that leads to a placement again.

* **`Netlist.IsPlacedOn`** — blocks on locations of a device, each on its own.
* **`Netlist.isPlacedOn_relocate`** — when that still holds after a move.
* **`Proposer.Knows`** — the index agrees with a placement.
* **`Proposer.knows_ofNetlist`**, **`Proposer.knows_accept`** — it does so at the start, and after a
  move. -/

namespace WireCost

/-! ## Placements -/

/-- **Blocks placed on a device,** each on a location of its own. Their ids are their positions. -/
structure Netlist.IsPlacedOn (nl : Netlist) (d : Device) : Prop where
  ids : ∀ (i : Nat) (b : Block), nl.blocks[i]? = some b → b.id.toNat = i
  sites : ∀ (i : Nat) (b : Block), nl.blocks[i]? = some b → d.HasLocation b.location
  distinct : ∀ (i j : Nat) (b b' : Block), nl.blocks[i]? = some b → nl.blocks[j]? = some b' →
    b.location = b'.location → i = j

namespace Netlist

variable {nl : Netlist} {d : Device} {m : Move}

/-- A block that is listed sits at its target. -/
theorem exists_at_target (hfits : m.Fits nl) {r : Relocation} (hr : r ∈ m.relocations) :
    ∃ b', (nl.relocate (·.target) m.relocations).blocks[r.block.toNat]? = some b' ∧
      b'.location = r.target := by
  obtain ⟨b, hb, -⟩ := hfits.starts r hr
  refine ⟨_, by rw [getElem?_relocate, hb, Option.map_some], ?_⟩
  rw [relocateBlock_of_mem hfits.distinct hr]

/-- A block that is not listed stays. -/
theorem getElem?_relocate_of_forall_ne {i : Nat} (hstay : ∀ r ∈ m.relocations, r.block.toNat ≠ i) :
    (nl.relocate (·.target) m.relocations).blocks[i]? = nl.blocks[i]? := by
  have hsame : relocateBlock (·.target) m.relocations i = id :=
    funext fun b => relocateBlock_of_forall_ne hstay
  rw [getElem?_relocate, hsame, Option.map_id, id]

/-- A block of a placement after a move sits at its target, or where it sat. -/
theorem relocate_cases (hfits : m.Fits nl) {i : Nat} {b' : Block}
    (hb' : (nl.relocate (·.target) m.relocations).blocks[i]? = some b') :
    ∃ b, nl.blocks[i]? = some b ∧ b'.id = b.id ∧
      ((∃ r ∈ m.relocations, r.block.toNat = i ∧ b'.location = r.target) ∨
        (∀ r ∈ m.relocations, r.block.toNat ≠ i) ∧ b'.location = b.location) := by
  rw [getElem?_relocate, Option.map_eq_some_iff] at hb'
  obtain ⟨b, hb, rfl⟩ := hb'
  refine ⟨b, hb, ?_⟩
  by_cases hlisted : ∃ r ∈ m.relocations, r.block.toNat = i
  · obtain ⟨r, hr, rfl⟩ := hlisted
    rw [relocateBlock_of_mem hfits.distinct hr]
    exact ⟨rfl, .inl ⟨r, hr, rfl, rfl⟩⟩
  · have hstay : ∀ r ∈ m.relocations, r.block.toNat ≠ i := fun r hr heq => hlisted ⟨r, hr, heq⟩
    rw [relocateBlock_of_forall_ne hstay]
    exact ⟨rfl, .inr ⟨hstay, rfl⟩⟩

/-- Where no two blocks have the same place, no place is listed twice. -/
theorem nodup_places {rs : List Relocation} {place : Relocation → Location}
    (hdistinct : (rs.map (·.block)).Nodup)
    (hplaces : ∀ r ∈ rs, ∀ r' ∈ rs, place r = place r' → r.block.toNat = r'.block.toNat) :
    (rs.map place).Nodup := by
  refine (List.Nodup.of_map _ hdistinct).map_on fun r hr r' hr' heq => ?_
  exact List.inj_on_of_nodup_map hdistinct hr hr' (BlockId.toNat_inj.1 (hplaces r hr r' hr' heq))

/-- A move starts from different locations. -/
theorem nodup_sources (hnl : nl.IsPlacedOn d) (hfits : m.Fits nl) :
    (m.relocations.map (·.source)).Nodup := by
  refine nodup_places hfits.distinct fun r hr r' hr' heq => ?_
  obtain ⟨b, hb, hsits⟩ := hfits.starts r hr
  obtain ⟨b', hb', hsits'⟩ := hfits.starts r' hr'
  exact hnl.distinct _ _ _ _ hb hb' (hsits.trans (heq.trans hsits'.symm))

/-- A move that leads to a placement goes to different locations. -/
theorem nodup_targets (hplaced : (nl.relocate (·.target) m.relocations).IsPlacedOn d)
    (hfits : m.Fits nl) : (m.relocations.map (·.target)).Nodup := by
  refine nodup_places hfits.distinct fun r hr r' hr' heq => ?_
  obtain ⟨b, hb, hsits⟩ := exists_at_target hfits hr
  obtain ⟨b', hb', hsits'⟩ := exists_at_target hfits hr'
  exact hplaced.distinct _ _ _ _ hb hb' (hsits.trans (heq.trans hsits'.symm))

/-- **A placement after a move:** its blocks go to locations of the device, no two of them to the
same one, and none to one where a block stays. -/
theorem isPlacedOn_relocate (hnl : nl.IsPlacedOn d) (hfits : m.Fits nl)
    (hsites : ∀ r ∈ m.relocations, d.HasLocation r.target)
    (htargets : ∀ r ∈ m.relocations, ∀ r' ∈ m.relocations, r.target = r'.target → r = r')
    (hclear : ∀ r ∈ m.relocations, ∀ (i : Nat) (b : Block), nl.blocks[i]? = some b →
      b.location = r.target → ∃ r' ∈ m.relocations, r'.block.toNat = i) :
    (nl.relocate (·.target) m.relocations).IsPlacedOn d := by
  refine ⟨fun i b' hb' => ?_, fun i b' hb' => ?_, fun i j b₁ b₂ hb₁ hb₂ heq => ?_⟩
  · obtain ⟨b, hb, hid, -⟩ := relocate_cases hfits hb'
    rw [hid, hnl.ids i b hb]
  · obtain ⟨b, hb, -, ⟨r, hr, -, hat⟩ | ⟨-, hat⟩⟩ := relocate_cases hfits hb'
    · exact hat ▸ hsites r hr
    · exact hat ▸ hnl.sites i b hb
  · obtain ⟨a₁, ha₁, -, ⟨r₁, hr₁, rfl, hat₁⟩ | ⟨hstay₁, hat₁⟩⟩ := relocate_cases hfits hb₁
    · obtain ⟨a₂, ha₂, -, ⟨r₂, hr₂, rfl, hat₂⟩ | ⟨hstay₂, hat₂⟩⟩ := relocate_cases hfits hb₂
      · rw [htargets r₁ hr₁ r₂ hr₂ (hat₁.symm.trans (heq.trans hat₂))]
      · obtain ⟨r, hr, hid⟩ := hclear r₁ hr₁ j a₂ ha₂ (hat₂.symm.trans (heq.symm.trans hat₁))
        exact absurd hid (hstay₂ r hr)
    · obtain ⟨a₂, ha₂, -, ⟨r₂, hr₂, rfl, hat₂⟩ | ⟨hstay₂, hat₂⟩⟩ := relocate_cases hfits hb₂
      · obtain ⟨r, hr, hid⟩ := hclear r₂ hr₂ i a₁ ha₁ (hat₁.symm.trans (heq.trans hat₂))
        exact absurd hid (hstay₁ r hr)
      · exact hnl.distinct i j a₁ a₂ ha₁ ha₂ (hat₁.symm.trans (heq.trans hat₂))

/-- Ids that are words tell no more blocks apart than there are words. -/
theorem IsPlacedOn.size_le (hnl : nl.IsPlacedOn d) : nl.blocks.size ≤ Word.size32 := by
  by_contra hlarge
  have hb := Array.getElem?_eq_getElem (Nat.not_le.1 hlarge)
  exact absurd (hnl.ids _ _ hb) (Nat.ne_of_lt (UInt32.toNat_lt _))

end Netlist

/-! ## Indices of locations -/

section

variable {ι : Type} {key : ι → Location} {value : ι → BlockId} {l : Location} {id : BlockId}

/-- What stands in an index that was filled with items of different keys. -/
theorem getElem?_foldl_insert (items : List ι) (taken : Std.HashMap Location BlockId)
    (hkeys : (items.map key).Nodup) :
    (items.foldl (fun taken i => taken.insert (key i) (value i)) taken)[l]? = some id ↔
      (∃ i ∈ items, key i = l ∧ value i = id) ∨
        (∀ i ∈ items, key i ≠ l) ∧ taken[l]? = some id := by
  induction items generalizing taken with
  | nil => simp
  | cons i items ih =>
    rw [List.map_cons, List.nodup_cons] at hkeys
    rw [List.foldl_cons, ih _ hkeys.2, Std.HashMap.getElem?_insert]
    by_cases hkey : key i = l
    · -- no other item has this key
      subst hkey
      have hothers : ∀ j ∈ items, key j ≠ key i := fun j hj heq =>
        hkeys.1 (heq ▸ List.mem_map_of_mem hj)
      simp only [beq_self_eq_true, if_true, Option.some.injEq, List.mem_cons]
      grind
    · simp only [beq_iff_eq, hkey, if_false, List.mem_cons]
      grind

/-- What stands in an index from which items with the keys at which they stand were taken. -/
theorem getElem?_foldl_erase (items : List ι) (taken : Std.HashMap Location BlockId)
    (hkeys : (items.map key).Nodup) (hstands : ∀ i ∈ items, taken[key i]? = some (value i)) :
    (items.foldl (fun taken i =>
      if taken[key i]? = some (value i) then taken.erase (key i) else taken) taken)[l]? =
      if l ∈ items.map key then none else taken[l]? := by
  induction items generalizing taken with
  | nil => simp
  | cons i items ih =>
    rw [List.map_cons, List.nodup_cons] at hkeys
    have hrest : ∀ j ∈ items, (taken.erase (key i))[key j]? = some (value j) := by
      intro j hj
      have hne : key i ≠ key j := fun heq => hkeys.1 (heq ▸ List.mem_map_of_mem hj)
      rw [Std.HashMap.getElem?_erase, if_neg (by simpa using hne)]
      exact hstands j (List.mem_cons_of_mem i hj)
    rw [List.foldl_cons, if_pos (hstands i List.mem_cons_self), ih _ hkeys.2 hrest,
      Std.HashMap.getElem?_erase]
    by_cases hkey : key i = l
    · simp [hkey]
    · simp [hkey, Ne.symm hkey]

end

/-! ## Proposers -/

namespace Proposer

variable {nl : Netlist} {d : Device} {p : Proposer} {m : Move} {range : UInt32}

/-- **A proposer knows a placement:** it has the range, cut down to a word, and at every location
the block that sits there. -/
structure Knows (p : Proposer) (nl : Netlist) (range : UInt32) : Prop where
  range : p.range = Word.cut32 range.toNat
  occupants : ∀ (l : Location) (id : BlockId), p.occupants[l]? = some id ↔
    ∃ b, nl.blocks[id.toNat]? = some b ∧ b.location = l

/-- A new proposer knows the placement. -/
theorem knows_ofNetlist (hnl : nl.IsPlacedOn d) (range : UInt32) :
    (ofNetlist nl range).Knows nl range := by
  refine ⟨by rw [ofNetlist], fun l id => ?_⟩
  have hkeys : (nl.blocks.toList.map Block.location).Nodup := by
    rw [List.Nodup, List.pairwise_map, List.pairwise_iff_getElem]
    intro i j hi hj hij heq
    exact absurd (hnl.distinct i j _ _ (Array.getElem?_eq_getElem hi)
      (Array.getElem?_eq_getElem hj) heq) (Nat.ne_of_lt hij)
  rw [ofNetlist, getElem?_foldl_insert _ _ hkeys]
  constructor
  · rintro (⟨b, hb, hl, hid⟩ | ⟨-, hempty⟩)
    · obtain ⟨i, hi⟩ := List.mem_iff_getElem?.1 hb
      rw [Array.getElem?_toList] at hi
      subst hid
      exact ⟨b, by rw [hnl.ids i b hi, hi], hl⟩
    · simp at hempty
  · rintro ⟨b, hb, hl⟩
    refine .inl ⟨b, ?_, hl, BlockId.toNat_inj.1 (hnl.ids _ _ hb)⟩
    exact List.mem_iff_getElem?.2 ⟨id.toNat, by rw [Array.getElem?_toList, hb]⟩

/-- **A proposer that accepts a move** knows the placement after it. -/
theorem knows_accept (hnl : nl.IsPlacedOn d) (h : p.Knows nl range) (hfits : m.Fits nl)
    (hplaced : (nl.relocate (·.target) m.relocations).IsPlacedOn d) :
    (p.accept m).Knows (nl.relocate (·.target) m.relocations) range := by
  have hstands : ∀ r ∈ m.relocations, p.occupants[r.source]? = some r.block := fun r hr =>
    (h.occupants _ _).2 (hfits.starts r hr)
  refine ⟨h.range, fun l id => ?_⟩
  rw [accept, getElem?_foldl_insert _ _ (Netlist.nodup_targets hplaced hfits),
    getElem?_foldl_erase _ _ (Netlist.nodup_sources hnl hfits) hstands]
  constructor
  · rintro (⟨r, hr, rfl, rfl⟩ | ⟨-, hstays⟩)
    · exact Netlist.exists_at_target hfits hr
    · split at hstays
      · cases hstays
      · -- the block sits at no source, so it is not listed
        rename_i hsource
        obtain ⟨b, hb, hl⟩ := (h.occupants l id).1 hstays
        refine ⟨b, ?_, hl⟩
        rw [Netlist.getElem?_relocate_of_forall_ne, hb]
        intro r hr hid
        obtain ⟨b₀, hb₀, hstart⟩ := hfits.starts r hr
        rw [hid, hb] at hb₀
        cases hb₀
        exact hsource (List.mem_map.2 ⟨r, hr, hstart.symm.trans hl⟩)
  · rintro ⟨b', hb', hl⟩
    by_cases hlisted : ∃ r ∈ m.relocations, r.block = id
    · obtain ⟨r, hr, rfl⟩ := hlisted
      obtain ⟨b₀, hb₀, hat⟩ := Netlist.exists_at_target hfits hr
      rw [hb'] at hb₀
      cases hb₀
      exact .inl ⟨r, hr, hat.symm.trans hl, rfl⟩
    · have hstay : ∀ r ∈ m.relocations, r.block.toNat ≠ id.toNat := fun r hr heq =>
        hlisted ⟨r, hr, BlockId.toNat_inj.1 heq⟩
      have hb := hb'
      rw [Netlist.getElem?_relocate_of_forall_ne hstay] at hb
      refine .inr ⟨fun r hr heq => ?_, ?_⟩
      · -- a listed block would have the same place
        obtain ⟨b₀, hb₀, hat⟩ := Netlist.exists_at_target hfits hr
        exact hstay r hr (hplaced.distinct _ _ _ _ hb₀ hb' (hat.trans (heq.trans hl.symm)))
      · rw [if_neg, (h.occupants l id).2 ⟨b', hb, hl⟩]
        intro hsource
        obtain ⟨r, hr, heq⟩ := List.mem_map.1 hsource
        obtain ⟨b₀, hb₀, hstart⟩ := hfits.starts r hr
        exact hstay r hr (hnl.distinct _ _ _ _ hb₀ hb (hstart.trans (heq.trans hl.symm)))

end Proposer

end WireCost
