import WireCost.Proofs.Netlist.Consistent

/-! # Built netlists

A netlist that is made by the building operations has tables that agree about each other.

* **`Netlist.Built`** — the netlists that the building operations make.
* **`Netlist.Built.consistent`** — every built netlist is consistent.
* **`Sample.netlist`** — a small netlist that is built. -/

namespace WireCost.Netlist

variable {nl nl' : Netlist}

/-! ## Building -/

/-- **Netlists made by the building operations,** with fewer blocks, nets and pins than ids. -/
inductive Built : Netlist → Prop where
  | empty : Built .empty
  | addBlock {nl : Netlist} (name : String) (location : Location) : Built nl →
      nl.blocks.size + 1 < Word.size32 → Built (nl.addBlock name location).1
  | addNet {nl : Netlist} (name : String) : Built nl →
      nl.nets.size + 1 < Word.size32 → Built (nl.addNet name).1
  | connectDriver {nl nl' : Netlist} {net : NetId} {block : BlockId} {offset : Offset}
      {id : PinId} : Built nl → nl.pins.size + 1 < Word.size32 →
      nl.connectDriver net block offset = .ok (nl', id) → Built nl'
  | connectSink {nl nl' : Netlist} {net : NetId} {block : BlockId} {offset : Offset}
      {id : PinId} : Built nl → nl.pins.size + 1 < Word.size32 →
      nl.connectSink net block offset = .ok (nl', id) → Built nl'
  | addOpenPin {nl nl' : Netlist} {block : BlockId} {id : PinId} : Built nl →
      nl.pins.size + 1 < Word.size32 → nl.addOpenPin block = .ok (nl', id) → Built nl'
  | setIgnored {nl nl' : Netlist} {net : NetId} {ignored : Bool} : Built nl →
      nl.setIgnored net ignored = .ok nl' → Built nl'
  | place {nl nl' : Netlist} {block : BlockId} {location : Location} : Built nl →
      nl.place block location = .ok nl' → Built nl'

/-- A netlist with one more pin, which its block lists. -/
def withPin (nl : Netlist) (pin : Pin) : Netlist :=
  { nl with
    pins := nl.pins.push pin
    blocks := nl.blocks.modify pin.block.toNat fun b => { b with pins := b.pins ++ [pin.id] } }

/-- What adding a pin does. -/
theorem addPin_eq_ok {block : BlockId} {net : Option NetId} {direction : PinDirection}
    {offset : Offset} {sinkIndex : Option UInt64} {id : PinId} :
    nl.addPin block net direction offset sinkIndex = .ok (nl', id) ↔
      (∃ b, nl.blocks[block.toNat]? = some b) ∧ .ofNat nl.pins.size = id ∧
        nl.withPin ⟨id, block, net, direction, offset, sinkIndex⟩ = nl' := by
  simp only [addPin, Checked.bind_eq_ok, updateBlock_eq_ok, Except.ok.injEq, Prod.mk.injEq]
  constructor
  · rintro ⟨_, ⟨hblock, rfl⟩, rfl, rfl⟩
    exact ⟨hblock, rfl, rfl⟩
  · rintro ⟨hblock, rfl, rfl⟩
    exact ⟨_, ⟨hblock, rfl⟩, rfl, rfl⟩

/-- What connecting a driver does. -/
theorem connectDriver_eq_ok {net : NetId} {block : BlockId} {offset : Offset} {id : PinId} :
    nl.connectDriver net block offset = .ok (nl', id) ↔
      ∃ old, nl.nets[net.toNat]? = some old ∧ old.driver = none ∧
        (∃ b, nl.blocks[block.toNat]? = some b) ∧ .ofNat nl.pins.size = id ∧
        { nl.withPin ⟨id, block, some net, .driver, offset, none⟩ with
          nets := nl.nets.modify net.toNat fun n => { n with driver := some id } } = nl' := by
  simp only [connectDriver, Netlist.net, Checked.bind_eq_ok, entry_eq_ok, require_eq_ok,
    Except.ok.injEq, Prod.mk.injEq]
  constructor
  · rintro ⟨old, hold, -, hfree, ⟨nl₁, id₁⟩, hadd, nl₂, hupdate, rfl, rfl⟩
    obtain ⟨hblock, hid, rfl⟩ := addPin_eq_ok.1 hadd
    exact ⟨old, hold, hfree, hblock, hid, (updateNet_eq_ok.1 hupdate).2⟩
  · rintro ⟨old, hold, hfree, hblock, hid, rfl⟩
    exact ⟨old, hold, (), hfree, _, addPin_eq_ok.2 ⟨hblock, hid, rfl⟩, _,
      updateNet_eq_ok.2 ⟨⟨old, hold⟩, rfl⟩, rfl, rfl⟩

/-- What connecting a sink does. -/
theorem connectSink_eq_ok {net : NetId} {block : BlockId} {offset : Offset} {id : PinId} :
    nl.connectSink net block offset = .ok (nl', id) ↔
      ∃ old, nl.nets[net.toNat]? = some old ∧
        (∃ b, nl.blocks[block.toNat]? = some b) ∧ .ofNat nl.pins.size = id ∧
        { nl.withPin ⟨id, block, some net, .sink, offset, some (.ofNat old.sinks.length)⟩ with
          nets := nl.nets.modify net.toNat fun n => { n with sinks := n.sinks ++ [id] } } =
          nl' := by
  simp only [connectSink, Netlist.net, Checked.bind_eq_ok, entry_eq_ok, Except.ok.injEq,
    Prod.mk.injEq]
  constructor
  · rintro ⟨old, hold, ⟨nl₁, id₁⟩, hadd, nl₂, hupdate, rfl, rfl⟩
    obtain ⟨hblock, hid, rfl⟩ := addPin_eq_ok.1 hadd
    exact ⟨old, hold, hblock, hid, (updateNet_eq_ok.1 hupdate).2⟩
  · rintro ⟨old, hold, hblock, hid, rfl⟩
    exact ⟨old, hold, _, addPin_eq_ok.2 ⟨hblock, hid, rfl⟩, _,
      updateNet_eq_ok.2 ⟨⟨old, hold⟩, rfl⟩, rfl, rfl⟩

/-! ## More blocks and nets -/

theorem Consistent.empty : Consistent .empty where
  blocks := ⟨by decide, by simp [Netlist.empty], by simp [Netlist.empty], by simp [Netlist.empty],
    by simp [Netlist.empty]⟩
  nets := ⟨by decide, by simp [Netlist.empty], by simp [Netlist.empty], by simp [Netlist.empty],
    by simp [Netlist.empty]⟩
  pinRoom := by decide
  pinIds := by simp [Netlist.empty]

/-- A new block has no pins. -/
theorem Consistent.addBlock (h : nl.Consistent) (name : String) (location : Location)
    (room : nl.blocks.size + 1 < Word.size32) : (nl.addBlock name location).1.Consistent where
  blocks := by
    simp only [Netlist.addBlock]
    refine ⟨?_, ?_, ?_, ?_, ?_⟩
    · simpa using room
    · intro i block hblock
      rw [Array.getElem?_push] at hblock
      split at hblock
      · cases hblock
        simp_all [BlockId.toNat_ofNat (show nl.blocks.size < Word.size32 by omega)]
      · exact h.blocks.ids i block hblock
    · intro id block hblock p
      rw [Array.getElem?_push] at hblock
      split at hblock
      · -- no pin names a block that was not there
        rename_i hid
        cases hblock
        simp only [List.not_mem_nil, false_iff]
        rintro ⟨pin, hpin, rfl⟩
        obtain ⟨block, hblock⟩ := h.blocks.blockOf _ pin hpin
        simp [hid] at hblock
      · exact h.blocks.lists id block hblock p
    · intro i block hblock
      rw [Array.getElem?_push] at hblock
      split at hblock
      · cases hblock
        exact List.nodup_nil
      · exact h.blocks.once i block hblock
    · intro i pin hpin
      obtain ⟨block, hblock⟩ := h.blocks.blockOf i pin hpin
      refine ⟨block, ?_⟩
      rw [Array.getElem?_push, if_neg, hblock]
      intro hsize
      simp [hsize] at hblock
  nets := ⟨h.nets.room, h.nets.ids, h.nets.driver, h.nets.sink, h.nets.netOf⟩
  pinRoom := h.pinRoom
  pinIds := h.pinIds

/-- A new net has no pins. -/
theorem Consistent.addNet (h : nl.Consistent) (name : String)
    (room : nl.nets.size + 1 < Word.size32) : (nl.addNet name).1.Consistent where
  blocks := ⟨h.blocks.room, h.blocks.ids, h.blocks.lists, h.blocks.once, h.blocks.blockOf⟩
  nets := by
    simp only [Netlist.addNet]
    refine ⟨?_, ?_, ?_, ?_, ?_⟩
    · simpa using room
    · intro i net hnet
      rw [Array.getElem?_push] at hnet
      split at hnet
      · cases hnet
        simp_all [NetId.toNat_ofNat (show nl.nets.size < Word.size32 by omega)]
      · exact h.nets.ids i net hnet
    · intro id net hnet p hp
      rw [Array.getElem?_push] at hnet
      split at hnet
      · cases hnet
        cases hp
      · exact h.nets.driver id net hnet p hp
    · intro id net hnet i p hp
      rw [Array.getElem?_push] at hnet
      split at hnet
      · cases hnet
        simp at hp
      · exact h.nets.sink id net hnet i p hp
    · intro p pin id hpin hid
      obtain ⟨net, hnet, hrole⟩ := h.nets.netOf p pin id hpin hid
      refine ⟨net, ?_, hrole⟩
      rw [Array.getElem?_push, if_neg, hnet]
      intro hsize
      simp [hsize] at hnet
  pinRoom := h.pinRoom
  pinIds := h.pinIds

/-! ## More pins -/

section

variable {pin : Pin}

/-- The new pin has the next id. -/
theorem pin_ne_of_some (h : nl.Consistent) (hid : pin.id = .ofNat nl.pins.size) {p : PinId}
    {old : Pin} (hp : nl.pins[p.toNat]? = some old) : pin.id ≠ p := by
  rintro rfl
  rw [hid, PinId.toNat_ofNat h.pinRoom, Array.getElem?_eq_none (Nat.le_refl _)] at hp
  cases hp

/-- The pins of a netlist with one more pin. -/
theorem withPin_pins (h : nl.Consistent) (hid : pin.id = .ofNat nl.pins.size) {p : PinId}
    {q : Pin} : (nl.pins.push pin)[p.toNat]? = some q ↔
      (p = pin.id ∧ q = pin) ∨ nl.pins[p.toNat]? = some q := by
  have hlast : pin.id.toNat = nl.pins.size := by rw [hid, PinId.toNat_ofNat h.pinRoom]
  rw [Array.getElem?_push, ← hlast]
  by_cases hp : p = pin.id
  · subst hp
    have hnone : nl.pins[pin.id.toNat]? = none := Array.getElem?_eq_none (Nat.le_of_eq hlast.symm)
    simp [hnone, eq_comm]
  · simp [hp, PinId.toNat_inj]

/-- **Blocks agree with one more pin** that its block lists. -/
theorem Consistent.blocksAgree_withPin (h : nl.Consistent) (pin : Pin)
    (hid : pin.id = .ofNat nl.pins.size)
    (hblock : ∃ block, nl.blocks[pin.block.toNat]? = some block) :
    (nl.withPin pin).BlocksAgree where
  room := by
    simp only [withPin, Array.size_modify]
    exact h.blocks.room
  ids := by
    intro i block' hb
    obtain ⟨block, hold, rfl⟩ := getElem?_modify_eq_some.1 hb
    split
    · exact h.blocks.ids i block hold
    · exact h.blocks.ids i block hold
  lists := by
    intro id block' hb p
    obtain ⟨block, hold, rfl⟩ := getElem?_modify_eq_some.1 hb
    have hlists := h.blocks.lists id block hold p
    simp only [withPin, withPin_pins h hid]
    by_cases hown : pin.block.toNat = id.toNat
    · rw [if_pos hown, List.mem_append, List.mem_singleton, hlists]
      rw [BlockId.toNat_inj] at hown
      constructor
      · rintro (⟨q, hq, hqb⟩ | rfl)
        · exact ⟨q, .inr hq, hqb⟩
        · exact ⟨pin, .inl ⟨rfl, rfl⟩, hown⟩
      · rintro ⟨q, ⟨rfl, -⟩ | hq, hqb⟩
        · exact .inr rfl
        · exact .inl ⟨q, hq, hqb⟩
    · rw [if_neg hown, hlists]
      constructor
      · rintro ⟨q, hq, hqb⟩
        exact ⟨q, .inr hq, hqb⟩
      · rintro ⟨q, ⟨-, rfl⟩ | hq, hqb⟩
        · exact absurd (congrArg BlockId.toNat hqb) hown
        · exact ⟨q, hq, hqb⟩
  once := by
    intro i block' hb
    obtain ⟨block, hold, rfl⟩ := getElem?_modify_eq_some.1 hb
    split
    · -- the new pin is not listed yet
      rename_i hi
      subst hi
      rw [List.nodup_append]
      refine ⟨h.blocks.once _ block hold, by simp, ?_⟩
      intro p hp q hq
      rw [List.mem_singleton] at hq
      subst hq
      obtain ⟨old, hpin, -⟩ := (h.blocks.lists pin.block block hold p).1 hp
      exact (pin_ne_of_some h hid hpin).symm
    · exact h.blocks.once i block hold
  blockOf := by
    intro i q hq
    have hfound : ∃ block, nl.blocks[q.block.toNat]? = some block := by
      simp only [withPin, Array.getElem?_push] at hq
      split at hq
      · cases hq
        exact hblock
      · exact h.blocks.blockOf i q hq
    obtain ⟨block, hb⟩ := hfound
    exact ⟨_, getElem?_modify_eq_some.2 ⟨block, hb, rfl⟩⟩

theorem Consistent.pinRoom_withPin (room : nl.pins.size + 1 < Word.size32) :
    (nl.withPin pin).pins.size < Word.size32 := by
  simpa [withPin] using room

theorem Consistent.pinIds_withPin (h : nl.Consistent) (hid : pin.id = .ofNat nl.pins.size) :
    ∀ (i : Nat) (q : Pin), (nl.withPin pin).pins[i]? = some q → q.id.toNat = i := by
  intro i q hq
  simp only [withPin, Array.getElem?_push] at hq
  split at hq
  · rename_i hi
    cases hq
    rw [hi, hid, PinId.toNat_ofNat h.pinRoom]
  · exact h.pinIds i q hq

/-- Nets agree with one more pin that is not connected. -/
theorem Consistent.netsAgree_open (h : nl.Consistent) (hid : pin.id = .ofNat nl.pins.size)
    (hopen : pin.net = none) : (nl.withPin pin).NetsAgree where
  room := h.nets.room
  ids := h.nets.ids
  driver := by
    intro id net hnet p hp
    obtain ⟨q, hq, hrole⟩ := h.nets.driver id net hnet p hp
    exact ⟨q, (withPin_pins h hid).2 (.inr hq), hrole⟩
  sink := by
    intro id net hnet i p hp
    obtain ⟨q, hq, hrole⟩ := h.nets.sink id net hnet i p hp
    exact ⟨q, (withPin_pins h hid).2 (.inr hq), hrole⟩
  netOf := by
    intro p q id hq hnet
    obtain ⟨-, rfl⟩ | hq := (withPin_pins h hid).1 hq
    · rw [hopen] at hnet
      cases hnet
    · exact h.nets.netOf p q id hq hnet

/-- **Nets agree with one more pin** that its net takes as its driver. -/
theorem Consistent.netsAgree_driver (h : nl.Consistent) (hid : pin.id = .ofNat nl.pins.size)
    {n : NetId} {old : Net} (hn : nl.nets[n.toNat]? = some old) (hfree : old.driver = none)
    (hnet : pin.net = some n) (hrole : pin.direction = .driver) :
    NetsAgree { nl.withPin pin with
      nets := nl.nets.modify n.toNat fun net => { net with driver := some pin.id } } where
  room := by
    simp only [Array.size_modify]
    exact h.nets.room
  ids := by
    intro i net' hb
    obtain ⟨net, hold, rfl⟩ := getElem?_modify_eq_some.1 hb
    split
    · exact h.nets.ids i net hold
    · exact h.nets.ids i net hold
  driver := by
    intro id net' hb p hp
    obtain ⟨net, hold, rfl⟩ := getElem?_modify_eq_some.1 hb
    split at hp
    · rename_i hown
      rw [NetId.toNat_inj] at hown
      subst hown
      cases hp
      exact ⟨pin, (withPin_pins h hid).2 (.inl ⟨rfl, rfl⟩), hnet, hrole⟩
    · obtain ⟨q, hq, hkept⟩ := h.nets.driver id net hold p hp
      exact ⟨q, (withPin_pins h hid).2 (.inr hq), hkept⟩
  sink := by
    intro id net' hb i p hp
    obtain ⟨net, hold, rfl⟩ := getElem?_modify_eq_some.1 hb
    have hsink : net.sinks[i]? = some p := by
      split at hp
      · exact hp
      · exact hp
    obtain ⟨q, hq, hkept⟩ := h.nets.sink id net hold i p hsink
    exact ⟨q, (withPin_pins h hid).2 (.inr hq), hkept⟩
  netOf := by
    intro p q id hq hid'
    obtain ⟨rfl, rfl⟩ | hq := (withPin_pins h hid).1 hq
    · -- the new pin drives its net
      obtain rfl : n = id := by simpa [hnet] using hid'
      refine ⟨_, getElem?_modify_eq_some.2 ⟨old, hn, rfl⟩, ?_⟩
      rw [if_pos hrole, if_pos rfl]
    · obtain ⟨net, hold, hkept⟩ := h.nets.netOf p q id hq hid'
      refine ⟨_, getElem?_modify_eq_some.2 ⟨net, hold, rfl⟩, ?_⟩
      by_cases hown : n.toNat = id.toNat
      · -- the net had no driver before
        rw [if_pos hown]
        rw [NetId.toNat_inj] at hown
        subst hown
        obtain rfl : old = net := by simpa [hn] using hold
        by_cases hq : q.direction = .driver
        · rw [if_pos hq, hfree] at hkept
          cases hkept
        · rwa [if_neg hq] at hkept ⊢
      · rwa [if_neg hown]

/-- **Nets agree with one more pin** that its net lists as its last sink. -/
theorem Consistent.netsAgree_sink (h : nl.Consistent) (hid : pin.id = .ofNat nl.pins.size)
    {n : NetId} {old : Net} (hn : nl.nets[n.toNat]? = some old)
    (hindex : pin.sinkIndex.map (·.toNat) = some old.sinks.length)
    (hnet : pin.net = some n) (hrole : pin.direction = .sink) :
    NetsAgree { nl.withPin pin with
      nets := nl.nets.modify n.toNat fun net => { net with sinks := net.sinks ++ [pin.id] } } where
  room := by
    simp only [Array.size_modify]
    exact h.nets.room
  ids := by
    intro i net' hb
    obtain ⟨net, hold, rfl⟩ := getElem?_modify_eq_some.1 hb
    split
    · exact h.nets.ids i net hold
    · exact h.nets.ids i net hold
  driver := by
    intro id net' hb p hp
    obtain ⟨net, hold, rfl⟩ := getElem?_modify_eq_some.1 hb
    have hdriver : net.driver = some p := by
      split at hp
      · exact hp
      · exact hp
    obtain ⟨q, hq, hkept⟩ := h.nets.driver id net hold p hdriver
    exact ⟨q, (withPin_pins h hid).2 (.inr hq), hkept⟩
  sink := by
    intro id net' hb i p hp
    obtain ⟨net, hold, rfl⟩ := getElem?_modify_eq_some.1 hb
    split at hp
    · rename_i hown
      rw [NetId.toNat_inj] at hown
      subst hown
      obtain rfl : old = net := by simpa [hn] using hold
      rw [List.getElem?_append] at hp
      split at hp
      · -- an old sink keeps its position, the new one is the last
        obtain ⟨q, hq, hkept⟩ := h.nets.sink n old hn i p hp
        exact ⟨q, (withPin_pins h hid).2 (.inr hq), hkept⟩
      · obtain ⟨hi, rfl⟩ : i - old.sinks.length = 0 ∧ pin.id = p := by
          simpa [List.getElem?_singleton] using hp
        obtain rfl : i = old.sinks.length := by omega
        exact ⟨pin, (withPin_pins h hid).2 (.inl ⟨rfl, rfl⟩), hnet, hrole, hindex⟩
    · obtain ⟨q, hq, hkept⟩ := h.nets.sink id net hold i p hp
      exact ⟨q, (withPin_pins h hid).2 (.inr hq), hkept⟩
  netOf := by
    intro p q id hq hid'
    obtain ⟨rfl, rfl⟩ | hq := (withPin_pins h hid).1 hq
    · obtain rfl : n = id := by simpa [hnet] using hid'
      -- the new pin notes the position that it gets
      refine ⟨_, getElem?_modify_eq_some.2 ⟨old, hn, rfl⟩, ?_⟩
      rw [if_neg (by simp [hrole]), if_pos rfl]
      exact ⟨_, hindex, List.getElem?_concat_length⟩
    · obtain ⟨net, hold, hkept⟩ := h.nets.netOf p q id hq hid'
      refine ⟨_, getElem?_modify_eq_some.2 ⟨net, hold, rfl⟩, ?_⟩
      by_cases hown : n.toNat = id.toNat
      · rw [if_pos hown]
        by_cases hq : q.direction = .driver
        · rwa [if_pos hq] at hkept ⊢
        · rw [if_neg hq] at hkept ⊢
          obtain ⟨i, hi, hsink⟩ := hkept
          refine ⟨i, hi, ?_⟩
          rw [List.getElem?_append_left (List.getElem?_eq_some_iff.1 hsink).1, hsink]
      · rwa [if_neg hown]

end

/-! ## Built netlists -/

/-- **The tables of a built netlist agree.** -/
theorem Built.consistent (h : nl.Built) : nl.Consistent := by
  induction h with
  | empty => exact .empty
  | addBlock name location _ room ih => exact ih.addBlock name location room
  | addNet name _ room ih => exact ih.addNet name room
  | @connectDriver nl nl' net block offset id _ room h ih =>
    obtain ⟨old, hold, hfree, hblock, hid, rfl⟩ := connectDriver_eq_ok.1 h
    have hagree := ih.blocksAgree_withPin ⟨_, block, some net, .driver, offset, none⟩
      hid.symm hblock
    exact ⟨⟨hagree.room, hagree.ids, hagree.lists, hagree.once, hagree.blockOf⟩,
      ih.netsAgree_driver hid.symm hold hfree rfl rfl, Consistent.pinRoom_withPin room,
      ih.pinIds_withPin hid.symm⟩
  | @connectSink nl nl' net block offset id _ room h ih =>
    obtain ⟨old, hold, hblock, hid, rfl⟩ := connectSink_eq_ok.1 h
    have hagree := ih.blocksAgree_withPin
      ⟨_, block, some net, .sink, offset, some (.ofNat old.sinks.length)⟩ hid.symm hblock
    -- a position is a word, since a net has no more sinks than there are pins
    have hlength : old.sinks.length < Word.size64 := by
      have hle := ih.length_sinks_le hold
      have hroom : nl.pins.size < 4294967296 := ih.pinRoom
      simp only [Word.size64]
      omega
    have hindex : (UInt64.ofNat old.sinks.length).toNat = old.sinks.length :=
      UInt64.toNat_ofNat_of_lt hlength
    exact ⟨⟨hagree.room, hagree.ids, hagree.lists, hagree.once, hagree.blockOf⟩,
      ih.netsAgree_sink hid.symm hold (congrArg some hindex) rfl rfl,
      Consistent.pinRoom_withPin room, ih.pinIds_withPin hid.symm⟩
  | addOpenPin _ room h ih =>
    obtain ⟨hblock, hid, rfl⟩ := addPin_eq_ok.1 h
    exact ⟨ih.blocksAgree_withPin _ hid.symm hblock, ih.netsAgree_open hid.symm rfl,
      Consistent.pinRoom_withPin room, ih.pinIds_withPin hid.symm⟩
  | setIgnored _ h ih => exact (sameWiring_setIgnored h).consistent ih
  | place _ h ih => exact (sameWiring_place h).consistent ih

end WireCost.Netlist

/-! ## A small netlist -/

namespace WireCost.Sample

/-- Two blocks and a net without pins. -/
def unconnected : Netlist :=
  (((Netlist.empty.addBlock "a" ⟨1, 1, 0, 0⟩).1.addBlock "b" ⟨2, 2, 0, 0⟩).1.addNet "n").1

/-- The first block drives the net. -/
def driven : Netlist × PinId :=
  result (unconnected.connectDriver ⟨0⟩ ⟨0⟩ .zero) (by decide +kernel)

theorem built_driven : driven.1.Built := by
  have hdriver : unconnected.connectDriver ⟨0⟩ ⟨0⟩ .zero = .ok (driven.1, driven.2) :=
    eq_ok_result (by decide +kernel)
  have hblocks := (Netlist.Built.empty.addBlock "a" ⟨1, 1, 0, 0⟩ (by decide)).addBlock "b"
    ⟨2, 2, 0, 0⟩ (by decide +kernel)
  exact (hblocks.addNet "n" (by decide +kernel)).connectDriver (by decide +kernel) hdriver

/-- A net from the first block to the second one. -/
def netlist : Netlist :=
  (result (driven.1.connectSink ⟨0⟩ ⟨1⟩ .zero) (by decide +kernel)).1

theorem built_netlist : netlist.Built := by
  have hsink : driven.1.connectSink ⟨0⟩ ⟨1⟩ .zero = .ok (netlist, _) :=
    eq_ok_result (by decide +kernel)
  exact built_driven.connectSink (by decide +kernel) hsink

end WireCost.Sample
