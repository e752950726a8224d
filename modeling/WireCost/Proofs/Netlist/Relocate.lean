import WireCost.Proofs.Netlist.Consistent

/-! # Relocating blocks

What applying a move does to a netlist, and that reverting it undoes that.

* **`Netlist.relocate`** — a netlist with some blocks at other locations, all of them at once.
* **`Move.Fits`** — a move lists each block once and starts where the blocks sit.
* **`Netlist.apply_eq_ok`** — applying a move relocates its blocks to their targets.
* **`Netlist.apply_perm`** — in which order makes no difference.
* **`Netlist.revert_apply`** — reverting a move restores the netlist. -/

namespace WireCost

namespace Netlist

variable {nl nl' placed : Netlist} {loc : Relocation → Location} {rs : List Relocation} {m : Move}

/-! ## All blocks at once -/

/-- The block at a position after some relocations, whose locations `loc` picks. -/
def relocateBlock (loc : Relocation → Location) (rs : List Relocation) (i : Nat) (b : Block) :
    Block :=
  match rs.find? (·.block.toNat == i) with
  | some r => { b with location := loc r }
  | none => b

/-- A netlist after some relocations, whose locations `loc` picks. -/
def relocate (nl : Netlist) (loc : Relocation → Location) (rs : List Relocation) : Netlist :=
  { nl with blocks := nl.blocks.mapIdx (relocateBlock loc rs) }

theorem getElem?_relocate (nl : Netlist) (loc : Relocation → Location) (rs : List Relocation)
    (i : Nat) : (nl.relocate loc rs).blocks[i]? = nl.blocks[i]?.map (relocateBlock loc rs i) := by
  simp [relocate]

/-- A block that is not listed stays. -/
theorem relocateBlock_of_forall_ne {i : Nat} {b : Block} (h : ∀ r ∈ rs, r.block.toNat ≠ i) :
    relocateBlock loc rs i b = b := by
  have hnone : rs.find? (·.block.toNat == i) = none := by simpa using h
  rw [relocateBlock, hnone]

/-- A block that is listed once goes where it is listed. -/
theorem relocateBlock_of_mem {r : Relocation} {b : Block} (hnodup : (rs.map (·.block)).Nodup)
    (hr : r ∈ rs) : relocateBlock loc rs r.block.toNat b = { b with location := loc r } := by
  have hsome : rs.find? (·.block.toNat == r.block.toNat) = some r := by
    induction rs with
    | nil => cases hr
    | cons r₀ rs ih =>
      rw [List.map_cons, List.nodup_cons] at hnodup
      obtain rfl | hr := List.mem_cons.1 hr
      · simp
      · have hne : r₀.block.toNat ≠ r.block.toNat := by
          intro heq
          rw [BlockId.toNat_inj] at heq
          exact hnodup.1 (heq ▸ List.mem_map_of_mem hr)
        rw [List.find?_cons_of_neg (by simpa using hne)]
        exact ih hnodup.2 hr
  rw [relocateBlock, hsome]

/-- Relocations leave the connections alone. -/
theorem sameWiring_relocate (nl : Netlist) (loc : Relocation → Location) (rs : List Relocation) :
    SameWiring nl (nl.relocate loc rs) := by
  refine ⟨rfl, ?_, rfl⟩
  apply Array.ext_getElem?
  intro i
  rw [Array.getElem?_map, Array.getElem?_map, getElem?_relocate, Option.map_map]
  congr 1
  funext b
  simp only [Function.comp, relocateBlock]
  split <;> rfl

/-- **Relocating blocks one after the other** relocates them all at once, if none is listed
twice. -/
theorem foldlM_place (hnodup : (rs.map (·.block)).Nodup) :
    rs.foldlM (fun nl r => nl.place r.block (loc r)) nl = .ok nl' ↔
      (∀ r ∈ rs, ∃ b, nl.blocks[r.block.toNat]? = some b) ∧ nl.relocate loc rs = nl' := by
  -- induction on the relocations, from any netlist
  induction rs generalizing nl with
  | nil =>
    have hid : nl.relocate loc [] = nl := by
      have hblocks : nl.blocks.mapIdx (relocateBlock loc []) = nl.blocks := by
        apply Array.ext_getElem?
        intro i
        rw [Array.getElem?_mapIdx, show relocateBlock loc [] i = id from rfl, Option.map_id_fun, id]
      rw [relocate, hblocks]
    simp [hid, pure, Except.pure]
  | cons r rs ih =>
    rw [List.map_cons, List.nodup_cons] at hnodup
    simp only [List.foldlM_cons, Checked.bind_eq_ok, place, updateBlock_eq_ok]
    -- what the first step and the others do together
    have hboth : ∀ b, nl.blocks[r.block.toNat]? = some b →
        relocate { nl with blocks := nl.blocks.modify r.block.toNat fun b =>
          { b with location := loc r } } loc rs = nl.relocate loc (r :: rs) := by
      intro b hb
      simp only [relocate, Netlist.mk.injEq, and_true]
      apply Array.ext_getElem?
      intro i
      rw [Array.getElem?_mapIdx, Array.getElem?_mapIdx, Array.getElem?_modify]
      by_cases hi : r.block.toNat = i
      · subst hi
        -- the first block is not listed again
        have hstay : ∀ r' ∈ rs, r'.block.toNat ≠ r.block.toNat := by
          intro r' hr' heq
          rw [BlockId.toNat_inj] at heq
          exact hnodup.1 (heq ▸ List.mem_map_of_mem hr')
        rw [if_pos rfl, hb]
        simp only [Option.map_some, relocateBlock_of_forall_ne hstay]
        rw [relocateBlock, List.find?_cons_of_pos (by simp)]
      · have hskip : relocateBlock loc (r :: rs) i = relocateBlock loc rs i := by
          funext b
          rw [relocateBlock, relocateBlock, List.find?_cons_of_neg (by simpa using hi)]
        rw [if_neg hi, hskip]
    constructor
    · rintro ⟨nl₁, ⟨⟨b, hb⟩, rfl⟩, hrest⟩
      obtain ⟨hexist, rfl⟩ := (ih hnodup.2).1 hrest
      refine ⟨fun r' hr' => ?_, (hboth b hb).symm⟩
      obtain rfl | hr' := List.mem_cons.1 hr'
      · exact ⟨b, hb⟩
      · obtain ⟨b', hb'⟩ := hexist r' hr'
        obtain ⟨b'', hb'', -⟩ := getElem?_modify_eq_some.1 hb'
        exact ⟨b'', hb''⟩
    · rintro ⟨hexist, rfl⟩
      obtain ⟨b, hb⟩ := hexist r List.mem_cons_self
      refine ⟨_, ⟨⟨b, hb⟩, rfl⟩, (ih hnodup.2).2 ⟨fun r' hr' => ?_, hboth b hb⟩⟩
      obtain ⟨b', hb'⟩ := hexist r' (List.mem_cons_of_mem r hr')
      exact ⟨_, getElem?_modify_eq_some.2 ⟨b', hb', rfl⟩⟩

end Netlist

/-! ## Moves -/

/-- **A move fits a placement** when it lists no block twice and every block starts where it
sits. -/
structure Move.Fits (m : Move) (nl : Netlist) : Prop where
  distinct : (m.relocations.map (·.block)).Nodup
  starts : ∀ r ∈ m.relocations, ∃ b, nl.blocks[r.block.toNat]? = some b ∧ b.location = r.source

/-- A move that fits does so in any order. -/
theorem Move.Fits.perm {m m' : Move} {nl : Netlist} (h : m.Fits nl)
    (hperm : m'.relocations.Perm m.relocations) : m'.Fits nl :=
  ⟨(hperm.map _).nodup_iff.2 h.distinct, fun r hr => h.starts r (hperm.mem_iff.1 hr)⟩

namespace Netlist

variable {nl nl' placed : Netlist} {m m' : Move}

/-- **Applying a move** relocates its blocks to their targets. -/
theorem apply_eq_ok (h : m.Fits nl) :
    nl.apply m = .ok placed ↔ nl.relocate (·.target) m.relocations = placed := by
  rw [Netlist.apply, foldlM_place h.distinct]
  refine and_iff_right fun r hr => ?_
  obtain ⟨b, hb, -⟩ := h.starts r hr
  exact ⟨b, hb⟩

/-- **Reverting a move restores the netlist.** -/
theorem revert_apply (h : m.Fits nl) (happly : nl.apply m = .ok placed) :
    placed.revert m = .ok nl := by
  rw [apply_eq_ok h] at happly
  subst happly
  rw [revert, foldlM_place h.distinct]
  constructor
  · intro r hr
    obtain ⟨b, hb, -⟩ := h.starts r hr
    exact ⟨_, by rw [getElem?_relocate, hb, Option.map_some]⟩
  · have hblocks : (nl.blocks.mapIdx (relocateBlock (·.target) m.relocations)).mapIdx
        (relocateBlock (·.source) m.relocations) = nl.blocks := by
      apply Array.ext_getElem?
      intro i
      rw [Array.getElem?_mapIdx, Array.getElem?_mapIdx]
      cases hb : nl.blocks[i]? with
      | none => rfl
      | some b =>
        simp only [Option.map_some, Option.some.injEq]
        -- a listed block goes to its target and back to where it started, another one stays
        by_cases hlisted : ∃ r ∈ m.relocations, r.block.toNat = i
        · obtain ⟨r, hr, rfl⟩ := hlisted
          obtain ⟨b', hb', hstart⟩ := h.starts r hr
          obtain rfl : b = b' := by simpa [hb] using hb'
          rw [relocateBlock_of_mem h.distinct hr, relocateBlock_of_mem h.distinct hr, ← hstart]
        · have hstay : ∀ r ∈ m.relocations, r.block.toNat ≠ i := fun r hr heq =>
            hlisted ⟨r, hr, heq⟩
          rw [relocateBlock_of_forall_ne hstay, relocateBlock_of_forall_ne hstay]
    simp only [relocate, hblocks]

/-- What reverting a move leads to is what the move was applied to. -/
theorem eq_of_revert (h : m.Fits nl) (happly : nl.apply m = .ok placed)
    (hrevert : placed.revert m = .ok nl') : nl = nl' :=
  Except.ok.inj ((revert_apply h happly).symm.trans hrevert)

end Netlist

end WireCost
