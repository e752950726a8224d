import WireCost.Proofs.Stress.Occupants
import WireCost.Settings.Check

/-! # Legal random moves

* **`Proposer.IsLegal`** — a move of a block within range, with a swap where another block is in the
  way.
* **`Proposer.propose_of_drawn`** — a block that is drawn is moved legally, or the range from it
  runs over a word.
* **`Proposer.Reached`** — the placements that accepted proposals lead to.
* **`Proposer.legal_within_words`** — what is proposed there, whatever the dice show.
* **`Proposer.accepted_limit_faults`** — a limit that the settings accept may run over a word. -/

namespace WireCost

namespace Proposer

variable {σ : Type} [Dice σ] {d : Device} {nl : Netlist} {p : Proposer} {m : Move}
  {range : UInt32} {b : Block} {dice rest : σ}

/-! ## Legal moves -/

/-- **A legal move of a block:** nothing moves, or the block goes to a target within range, and the
block that sits there, if any, takes its place. -/
inductive IsLegal (nl : Netlist) (d : Device) (range : UInt32) (b : Block) : Move → Prop where
  | empty : IsLegal nl d range b .empty
  | free {target : Location} (ht : IsTarget d range b.location target)
      (hfree : ∀ (i : Nat) (b' : Block), nl.blocks[i]? = some b' → b'.location ≠ target) :
      IsLegal nl d range b ⟨[⟨b.id, b.location, target⟩]⟩
  | swap {target : Location} (ht : IsTarget d range b.location target)
      (hne : target ≠ b.location) {id : BlockId} {b' : Block}
      (hb' : nl.blocks[id.toNat]? = some b') (hsits : b'.location = target) :
      IsLegal nl d range b ⟨[⟨b.id, b.location, target⟩, ⟨id, target, b.location⟩]⟩

/-- Blocks at different locations are different ones. -/
theorem id_ne_of_location_ne {id : BlockId} {b' : Block} (hb : nl.blocks[b.id.toNat]? = some b)
    (hb' : nl.blocks[id.toNat]? = some b') (hne : b'.location ≠ b.location) : b.id ≠ id := by
  rintro rfl
  rw [hb] at hb'
  cases hb'
  exact hne rfl

/-- **A legal move fits the placement.** -/
theorem IsLegal.fits (h : IsLegal nl d range b m) (hb : nl.blocks[b.id.toNat]? = some b) :
    m.Fits nl := by
  cases h with
  | empty => exact ⟨List.nodup_nil, nofun⟩
  | free ht hfree => exact ⟨List.nodup_singleton _, by simpa using ⟨b, hb, rfl⟩⟩
  | swap ht hne hb' hsits =>
    have hother := id_ne_of_location_ne hb hb' (hsits ▸ hne)
    exact ⟨by simpa using hother, by simpa using ⟨⟨b, hb, rfl⟩, ⟨_, hb', hsits⟩⟩⟩

/-- **A legal move** leads to a placement on the device again. -/
theorem IsLegal.isPlacedOn (h : IsLegal nl d range b m) (hnl : nl.IsPlacedOn d)
    (hb : nl.blocks[b.id.toNat]? = some b) :
    (nl.relocate (·.target) m.relocations).IsPlacedOn d := by
  have hfits := h.fits hb
  cases h with
  | empty => exact Netlist.isPlacedOn_relocate hnl hfits nofun nofun nofun
  | free ht hfree =>
    refine Netlist.isPlacedOn_relocate hnl hfits (by simpa using ht.site) (by simp) ?_
    simp only [List.mem_singleton, forall_eq, exists_eq_left]
    exact fun i b₀ hb₀ hat => absurd hat (hfree i b₀ hb₀)
  | swap ht hne hb' hsits =>
    refine Netlist.isPlacedOn_relocate hnl hfits (by simpa using ⟨ht.site, hnl.sites _ _ hb⟩)
      (by simp [hne, hne.symm]) ?_
    simp only [List.mem_cons, List.not_mem_nil, or_false, forall_eq_or_imp, forall_eq,
      exists_eq_or_imp, exists_eq_left]
    -- the two blocks change places
    refine ⟨fun i b₀ hb₀ hat => .inr ?_, fun i b₀ hb₀ hat => .inl ?_⟩
    · exact hnl.distinct _ _ _ _ hb' hb₀ (hsits.trans hat.symm)
    · exact hnl.distinct _ _ _ _ hb hb₀ hat.symm

/-! ## Proposing a move -/

/-- A block that moves away takes the one at its target along. -/
theorem exists_moveTo (hnl : nl.IsPlacedOn d) (h : p.Knows nl range)
    (hb : nl.blocks[b.id.toNat]? = some b) {target : Location}
    (ht : IsTarget d range b.location target) (hne : target ≠ b.location) :
    ∃ m, p.moveTo b.id b.location target = .ok m ∧ IsLegal nl d range b m := by
  have hfirst : Move.empty.push ⟨b.id, b.location, target⟩ =
      .ok ⟨[⟨b.id, b.location, target⟩]⟩ := rfl
  rw [moveTo, hfirst, Checked.ok_bind]
  cases hat : p.occupants[target]? with
  | none =>
    refine ⟨_, rfl, .free ht fun i b' hb' hsits => ?_⟩
    have hid := hnl.ids i b' hb'
    subst hid
    rw [(h.occupants target b'.id).2 ⟨b', hb', hsits⟩] at hat
    cases hat
  | some id =>
    obtain ⟨b', hb', hsits⟩ := (h.occupants target id).1 hat
    have hother := id_ne_of_location_ne hb hb' (hsits ▸ hne)
    refine ⟨_, ?_, .swap ht hne hb' hsits⟩
    simp [Move.push, Move.contains, require, hother]

/-- A proposal, as its draws and its checks. -/
theorem propose_eq (p : Proposer) (nl : Netlist) (d : Device) (dice : σ) :
    p.propose nl d dice =
      draw 0 ((nl.blocks.size % Word.size32 : Nat) - 1) dice >>= fun n =>
      nl.block (.ofNat n.1.toNat) >>= fun b =>
      p.drawTarget d b.location n.2 >>= fun t =>
      if t.1 = b.location then .ok (.empty, t.2)
      else p.moveTo (.ofNat n.1.toNat) b.location t.1 >>= fun m => .ok (m, t.2) := by
  rw [propose, Random.bind_apply]
  refine congrArg _ (funext fun n => ?_)
  rw [Random.lift_bind]
  refine congrArg _ (funext fun b => ?_)
  rw [Random.bind_apply]
  refine congrArg _ (funext fun t => ?_)
  split
  · rfl
  · rfl

/-- The block that is drawn, if the number of blocks is a word. -/
theorem exists_drawn (hnl : nl.IsPlacedOn d) (hsome : 0 < nl.blocks.size)
    (hroom : nl.blocks.size < Word.size32) (dice : σ) :
    ∃ (id : BlockId) (b : Block) (rest : σ), nl.blocks[id.toNat]? = some b ∧ b.id = id ∧
      draw 0 ((nl.blocks.size % Word.size32 : Nat) - 1) dice = .ok ((id.toNat : Int), rest) := by
  rw [Nat.mod_eq_of_lt hroom]
  have hrange : (0 : Int) ≤ nl.blocks.size - 1 := by omega
  obtain ⟨n, rest, hdraw, hlow, hhigh⟩ := draw_eq_ok hrange dice
  have hlt : n.toNat < nl.blocks.size := by omega
  have hid := BlockId.toNat_ofNat (Nat.lt_trans hlt hroom)
  have hb : nl.blocks[(BlockId.ofNat n.toNat).toNat]? = some nl.blocks[n.toNat] := by
    rw [hid, Array.getElem?_eq_getElem hlt]
  refine ⟨.ofNat n.toNat, nl.blocks[n.toNat], rest, hb, ?_, ?_⟩
  · exact BlockId.toNat_inj.1 (hnl.ids _ _ hb)
  · rw [hdraw, hid, Int.toNat_of_nonneg hlow]

/-- **A proposal for the block that is drawn** is made exactly if the range from where it sits does
not run over a word, and then it is legal. -/
theorem propose_of_drawn (hd : d.IsCounted) (hnl : nl.IsPlacedOn d) (h : p.Knows nl range)
    {id : BlockId} {b : Block} {rest : σ} (hb : nl.blocks[id.toNat]? = some b) (hid : b.id = id)
    (hdraw : draw 0 ((nl.blocks.size % Word.size32 : Nat) - 1) dice =
      .ok ((id.toNat : Int), rest)) :
    (FitsWord range b.location →
      ∃ m rest', p.propose nl d dice = .ok (m, rest') ∧ IsLegal nl d range b m) ∧
    (¬ FitsWord range b.location → ∃ fault, p.propose nl d dice = .error fault) := by
  have hback : BlockId.ofNat (id.toNat : Int).toNat = id :=
    BlockId.toNat_inj.1 (BlockId.toNat_ofNat id.index.toNat_lt)
  have hblock : nl.block id = .ok b := entry_of_some hb
  have hsite := hnl.sites _ _ hb
  rw [propose_eq, hdraw, Checked.ok_bind, hback, hblock, Checked.ok_bind]
  constructor
  · intro hfits
    obtain ⟨target, rest', htarget, ht⟩ := exists_drawTarget h.range hd hsite hfits rest
    rw [htarget, Checked.ok_bind]
    split
    · exact ⟨_, _, rfl, .empty⟩
    · rename_i hne
      subst hid
      obtain ⟨m, hm, hlegal⟩ := exists_moveTo hnl h hb ht hne
      exact ⟨m, rest', by rw [hm, Checked.ok_bind], hlegal⟩
  · intro hruns
    obtain ⟨fault, hfault⟩ := exists_drawTarget_eq_error h.range hd hsite hruns rest
    exact ⟨fault, by rw [hfault, Checked.error_bind]⟩

/-! ## Every proposal -/

/-- **The placements that accepted proposals lead to,** each with the proposer that has kept track
of it. A proposal that is discarded changes neither, see `Reached.exists_apply`. -/
inductive Reached (σ : Type) [Dice σ] (d : Device) (range : UInt32) :
    Proposer → Netlist → Prop where
  | start {nl : Netlist} (hnl : nl.IsPlacedOn d) (hsome : 0 < nl.blocks.size) :
      Reached σ d range (.ofNetlist nl range) nl
  | accept {p : Proposer} {nl placed : Netlist} {m : Move} {dice rest : σ}
      (h : Reached σ d range p nl) (hpropose : p.propose nl d dice = .ok (m, rest))
      (happly : nl.apply m = .ok placed) : Reached σ d range (p.accept m) placed

/-- Too many blocks for a word leave nothing to draw from. -/
theorem propose_of_size_eq (hsize : nl.blocks.size = Word.size32) (dice : σ) :
    p.propose nl d dice = .error .emptyRange := by
  rw [propose_eq, hsize, Nat.mod_self, draw_eq_error (by decide), Checked.error_bind]

/-- **A proposal that is made** is a legal move of some block. -/
theorem exists_isLegal (hd : d.IsCounted) (hnl : nl.IsPlacedOn d) (hsome : 0 < nl.blocks.size)
    (h : p.Knows nl range) (hm : p.propose nl d dice = .ok (m, rest)) :
    ∃ b, nl.blocks[b.id.toNat]? = some b ∧ IsLegal nl d range b m := by
  rcases Nat.lt_or_eq_of_le hnl.size_le with hroom | hsize
  · obtain ⟨id, b, rest, hb, rfl, hdraw⟩ := exists_drawn hnl hsome hroom dice
    obtain ⟨hlegal, hfault⟩ := propose_of_drawn hd hnl h hb rfl hdraw
    by_cases hfits : FitsWord range b.location
    · obtain ⟨m', rest', hm', hm'Legal⟩ := hlegal hfits
      rw [hm] at hm'
      cases hm'
      exact ⟨b, hb, hm'Legal⟩
    · obtain ⟨fault, hfault⟩ := hfault hfits
      rw [hm] at hfault
      cases hfault
  · rw [propose_of_size_eq hsize] at hm
    cases hm

/-- **A placement that is reached** lies on the device, and its proposer knows it. -/
theorem Reached.isPlacedOn (hd : d.IsCounted) (h : Reached σ d range p nl) :
    nl.IsPlacedOn d ∧ 0 < nl.blocks.size ∧ p.Knows nl range := by
  induction h with
  | start hnl hsome => exact ⟨hnl, hsome, knows_ofNetlist hnl range⟩
  | accept h hpropose happly ih =>
    obtain ⟨hnl, hsome, hknows⟩ := ih
    obtain ⟨b, hb, hlegal⟩ := exists_isLegal hd hnl hsome hknows hpropose
    have hfits := hlegal.fits hb
    have hplaced := hlegal.isPlacedOn hnl hb
    rw [Netlist.apply_eq_ok hfits] at happly
    subst happly
    refine ⟨hplaced, ?_, knows_accept hnl hknows hfits hplaced⟩
    rwa [Netlist.relocate, Array.size_mapIdx]

/-- **A proposal can be made and taken back:** its blocks are there, and go back to where they
sat. -/
theorem Reached.exists_apply (hd : d.IsCounted) (h : Reached σ d range p nl)
    (hm : p.propose nl d dice = .ok (m, rest)) :
    ∃ placed, nl.apply m = .ok placed ∧ placed.revert m = .ok nl := by
  obtain ⟨hnl, hsome, hknows⟩ := h.isPlacedOn hd
  obtain ⟨b, hb, hlegal⟩ := exists_isLegal hd hnl hsome hknows hm
  have hfits := hlegal.fits hb
  have happly := (Netlist.apply_eq_ok hfits).2 rfl
  exact ⟨_, happly, Netlist.revert_apply hfits happly⟩

/-- **Every proposal within words is legal.** On a device whose sides and layers are counted by
signed words, with blocks on distinct locations, at the start or after any accepted proposals, and
whatever is thrown: some block is drawn, unless there are as many blocks as words. If the range from
where it sits does not run over a signed word along either axis, then a move is proposed. It is
empty, or it takes the block to a location of the device within range, together with the block that
sits there, which takes its place. Otherwise, the proposal ends in a fault. -/
theorem legal_within_words (hd : d.IsCounted) (h : Reached σ d range p nl) (dice : σ) :
    (nl.blocks.size = Word.size32 ∧ p.propose nl d dice = .error .emptyRange) ∨
    ∃ (id : BlockId) (b : Block) (rest : σ), nl.blocks[id.toNat]? = some b ∧
      draw 0 ((nl.blocks.size : Int) - 1) dice = .ok ((id.toNat : Int), rest) ∧
      (FitsWord range b.location →
        ∃ m rest', p.propose nl d dice = .ok (m, rest') ∧ IsLegal nl d range b m) ∧
      (¬ FitsWord range b.location → ∃ fault, p.propose nl d dice = .error fault) := by
  obtain ⟨hnl, hsome, hknows⟩ := h.isPlacedOn hd
  rcases Nat.lt_or_eq_of_le hnl.size_le with hroom | hsize
  · obtain ⟨id, b, rest, hb, hid, hdraw⟩ := exists_drawn hnl hsome hroom dice
    have houtcome := propose_of_drawn hd hnl hknows hb hid hdraw
    rw [Nat.mod_eq_of_lt hroom] at hdraw
    exact .inr ⟨id, b, rest, hb, hdraw, houtcome⟩
  · exact .inl ⟨hsize, propose_of_size_eq hsize dice⟩

end Proposer

/-! ## A limit that is accepted -/

namespace Sample

/-- Two blocks side by side. -/
def sideBySide : Netlist where
  blocks := #[⟨⟨0⟩, "a", ⟨1, 1, 0, 0⟩, []⟩, ⟨⟨1⟩, "b", ⟨2, 1, 0, 0⟩, []⟩]
  nets := #[]
  pins := #[]
  blockNames := ∅
  netNames := ∅

/-- A device with one tile inside the perimeter. -/
def threeByThree : Device := ⟨3, 3, 1, [1, 1, 1], [1, 1, 1]⟩

/-- Settings with a limit of the random moves, and nothing else out of the ordinary. -/
def limitedTo (range : UInt32) : Settings :=
  { Settings.standard with stress := { StressSettings.standard with range } }

theorem isPlacedOn_sideBySide : sideBySide.IsPlacedOn threeByThree := by
  have hblocks : ∀ (i : Nat) (b : Block), sideBySide.blocks[i]? = some b →
      i = 0 ∧ b = ⟨⟨0⟩, "a", ⟨1, 1, 0, 0⟩, []⟩ ∨ i = 1 ∧ b = ⟨⟨1⟩, "b", ⟨2, 1, 0, 0⟩, []⟩ := by
    intro i b hb
    match i with
    | 0 => exact .inl ⟨rfl, (Option.some.inj hb).symm⟩
    | 1 => exact .inr ⟨rfl, (Option.some.inj hb).symm⟩
    | i + 2 => cases hb
  refine ⟨fun i b hb => ?_, fun i b hb => ?_, fun i j b b' hb hb' heq => ?_⟩
  · obtain ⟨rfl, rfl⟩ | ⟨rfl, rfl⟩ := hblocks i b hb
    · rfl
    · rfl
  · obtain ⟨rfl, rfl⟩ | ⟨rfl, rfl⟩ := hblocks i b hb
    · exact ⟨by decide, by decide, by decide, rfl⟩
    · exact ⟨by decide, by decide, by decide, rfl⟩
  · obtain ⟨rfl, rfl⟩ | ⟨rfl, rfl⟩ := hblocks i b hb
    · obtain ⟨rfl, rfl⟩ | ⟨rfl, rfl⟩ := hblocks j b' hb'
      · rfl
      · exact absurd heq (by decide)
    · obtain ⟨rfl, rfl⟩ | ⟨rfl, rfl⟩ := hblocks j b' hb'
      · exact absurd heq (by decide)
      · rfl

end Sample

namespace Proposer

/-- One of two blocks side by side moves by a tile at most. -/
theorem legal_within_words_small : ∃ m rest b,
    (ofNetlist Sample.sideBySide 1).propose Sample.sideBySide Sample.threeByThree
      (⟨1⟩ : MixedCounter) = .ok (m, rest) ∧
    b ∈ Sample.sideBySide.blocks.toList ∧
    IsLegal Sample.sideBySide Sample.threeByThree 1 b m := by
  have hcounted : Sample.threeByThree.IsCounted := ⟨by decide, by decide, by decide⟩
  have hreached : Reached MixedCounter Sample.threeByThree 1 (ofNetlist Sample.sideBySide 1)
      Sample.sideBySide := .start Sample.isPlacedOn_sideBySide (by decide)
  obtain ⟨hsize, -⟩ | ⟨id, b, -, hb, -, hlegal, -⟩ :=
    legal_within_words hcounted hreached ⟨1⟩
  · exact absurd hsize (by decide)
  · have hsite := Sample.isPlacedOn_sideBySide.sites _ _ hb
    have hx : b.location.x.toInt < 3 := hsite.x.2
    have hy : b.location.y.toInt < 3 := hsite.y.2
    have hone : (1 : UInt32).toNat = 1 := rfl
    have hfits : FitsWord 1 b.location := by
      unfold FitsWord Word.size31
      omega
    obtain ⟨m, rest, hm, hmove⟩ := hlegal hfits
    exact ⟨m, rest, b, hm, by simpa using Array.mem_of_getElem? hb, hmove⟩

/-- **An accepted limit may leave nothing to draw from:** the largest one is cut down to a negative
number. -/
theorem accepted_limit_faults :
    (Sample.limitedTo 4294967295).check = .ok () ∧
    Sample.sideBySide.IsPlacedOn Sample.threeByThree ∧ Sample.threeByThree.IsCounted ∧
    (ofNetlist Sample.sideBySide (Sample.limitedTo 4294967295).stress.range).propose
      Sample.sideBySide Sample.threeByThree (⟨1⟩ : MixedCounter) = .error .emptyRange :=
  ⟨rfl, Sample.isPlacedOn_sideBySide, ⟨by decide, by decide, by decide⟩,
    Sample.eq_error_of_faultOf (by decide +kernel)⟩

end Proposer

end WireCost
