import Mathlib.Data.List.Nodup
import Mathlib.Data.List.Perm.Subperm
import WireCost.Netlist.Build
import WireCost.Proofs.Checked

/-! # Netlists whose tables agree

* **`Netlist.BlocksAgree`**, **`Netlist.NetsAgree`** — blocks and pins name each other, and so do
  nets and pins.
* **`Netlist.Consistent`** — both, and every id is the position of its entity.
* **`Netlist.SameWiring`** — netlists with the same connections; agreement depends on nothing
  else. -/

namespace WireCost

/-! ## Ids -/

theorem BlockId.toNat_inj {a b : BlockId} : a.toNat = b.toNat ↔ a = b := by
  cases a
  cases b
  simp [BlockId.toNat, UInt32.toNat_inj]

theorem NetId.toNat_inj {a b : NetId} : a.toNat = b.toNat ↔ a = b := by
  cases a
  cases b
  simp [NetId.toNat, UInt32.toNat_inj]

theorem PinId.toNat_inj {a b : PinId} : a.toNat = b.toNat ↔ a = b := by
  cases a
  cases b
  simp [PinId.toNat, UInt32.toNat_inj]

theorem BlockId.toNat_ofNat {n : Nat} (h : n < Word.size32) : (BlockId.ofNat n).toNat = n :=
  UInt32.toNat_ofNat_of_lt h

theorem NetId.toNat_ofNat {n : Nat} (h : n < Word.size32) : (NetId.ofNat n).toNat = n :=
  UInt32.toNat_ofNat_of_lt h

theorem PinId.toNat_ofNat {n : Nat} (h : n < Word.size32) : (PinId.ofNat n).toNat = n :=
  UInt32.toNat_ofNat_of_lt h

/-- Different positions have different ids. -/
theorem NetId.nodup_map_ofNat {k : Nat} (hk : k ≤ Word.size32) :
    ((List.range k).map NetId.ofNat).Nodup := by
  refine List.Nodup.map_on (fun i hi j hj heq => ?_) List.nodup_range
  rw [← NetId.toNat_ofNat (Nat.lt_of_lt_of_le (List.mem_range.1 hi) hk), heq,
    NetId.toNat_ofNat (Nat.lt_of_lt_of_le (List.mem_range.1 hj) hk)]

/-- Lists of ids as lists of positions. -/
theorem NetId.toNat_mem_map {n : NetId} {ns : List NetId} :
    n.toNat ∈ ns.map NetId.toNat ↔ n ∈ ns :=
  List.mem_map_of_injective fun _ _ => NetId.toNat_inj.1

theorem NetId.mem_map_concat {n : NetId} {ns : List NetId} {i : Nat} :
    i ∈ (ns ++ [n]).map NetId.toNat ↔ n.toNat = i ∨ i ∈ ns.map NetId.toNat := by
  rw [List.map_append, List.mem_append, List.map_singleton, List.mem_singleton, or_comm, eq_comm]

namespace Netlist

variable {nl nl' : Netlist}

/-! ## Changing one entity -/

/-- What changing a net does. -/
theorem updateNet_eq_ok {id : NetId} {f : Net → Net} : nl.updateNet id f = .ok nl' ↔
    (∃ net, nl.nets[id.toNat]? = some net) ∧
      { nl with nets := nl.nets.modify id.toNat f } = nl' := by
  simp only [updateNet, Netlist.net, Checked.bind_eq_ok, entry_eq_ok, Except.ok.injEq]
  constructor
  · rintro ⟨net, hnet, h⟩
    exact ⟨⟨net, hnet⟩, h⟩
  · rintro ⟨⟨net, hnet⟩, h⟩
    exact ⟨net, hnet, h⟩

/-- What changing a block does. -/
theorem updateBlock_eq_ok {id : BlockId} {f : Block → Block} : nl.updateBlock id f = .ok nl' ↔
    (∃ block, nl.blocks[id.toNat]? = some block) ∧
      { nl with blocks := nl.blocks.modify id.toNat f } = nl' := by
  simp only [updateBlock, Netlist.block, Checked.bind_eq_ok, entry_eq_ok, Except.ok.injEq]
  constructor
  · rintro ⟨block, hblock, h⟩
    exact ⟨⟨block, hblock⟩, h⟩
  · rintro ⟨⟨block, hblock⟩, h⟩
    exact ⟨block, hblock, h⟩

/-! ## Agreement of the tables -/

/-- Blocks and pins agree: a block lists exactly the pins that name it, and each of them once. -/
structure BlocksAgree (nl : Netlist) : Prop where
  room : nl.blocks.size < Word.size32
  ids : ∀ (i : Nat) (block : Block), nl.blocks[i]? = some block → block.id.toNat = i
  lists : ∀ (id : BlockId) (block : Block), nl.blocks[id.toNat]? = some block →
    ∀ p : PinId, p ∈ block.pins ↔ ∃ pin : Pin, nl.pins[p.toNat]? = some pin ∧ pin.block = id
  once : ∀ (i : Nat) (block : Block), nl.blocks[i]? = some block → block.pins.Nodup
  blockOf : ∀ (i : Nat) (pin : Pin), nl.pins[i]? = some pin →
    ∃ block, nl.blocks[pin.block.toNat]? = some block

/-- Nets and pins agree: a pin that is connected drives its net or is one of its sinks, at the
position that it has noted, and the pins of a net are connected to it. -/
structure NetsAgree (nl : Netlist) : Prop where
  room : nl.nets.size < Word.size32
  ids : ∀ (i : Nat) (net : Net), nl.nets[i]? = some net → net.id.toNat = i
  driver : ∀ (id : NetId) (net : Net), nl.nets[id.toNat]? = some net →
    ∀ p : PinId, net.driver = some p →
      ∃ pin : Pin, nl.pins[p.toNat]? = some pin ∧ pin.net = some id ∧ pin.direction = .driver
  sink : ∀ (id : NetId) (net : Net), nl.nets[id.toNat]? = some net →
    ∀ (i : Nat) (p : PinId), net.sinks[i]? = some p →
      ∃ pin : Pin, nl.pins[p.toNat]? = some pin ∧ pin.net = some id ∧ pin.direction = .sink ∧
        pin.sinkIndex.map (·.toNat) = some i
  netOf : ∀ (p : PinId) (pin : Pin) (id : NetId), nl.pins[p.toNat]? = some pin →
    pin.net = some id → ∃ net, nl.nets[id.toNat]? = some net ∧
      if pin.direction = .driver then net.driver = some p
      else ∃ i, pin.sinkIndex.map (·.toNat) = some i ∧ net.sinks[i]? = some p

/-- The tables agree, and every id is the position of its entity. -/
structure Consistent (nl : Netlist) : Prop where
  blocks : nl.BlocksAgree
  nets : nl.NetsAgree
  pinRoom : nl.pins.size < Word.size32
  pinIds : ∀ (i : Nat) (pin : Pin), nl.pins[i]? = some pin → pin.id.toNat = i

/-- Pins that note their positions in a list are there only once. -/
theorem nodup_of_sinkIndex (nl : Netlist) {sinks : List PinId}
    (h : ∀ (i : Nat) (p : PinId), sinks[i]? = some p →
      ∃ pin, nl.pins[p.toNat]? = some pin ∧ pin.sinkIndex.map (·.toNat) = some i) :
    sinks.Nodup := by
  rw [List.nodup_iff_getElem?_ne_getElem?]
  -- a pin notes one position only
  intro i j hij hj heq
  obtain ⟨p, hp⟩ : ∃ p, sinks[j]? = some p := ⟨_, List.getElem?_eq_getElem hj⟩
  obtain ⟨q, hq, hindex⟩ := h j p hp
  obtain ⟨q', hq', hindex'⟩ := h i p (heq.trans hp)
  obtain rfl : q = q' := by simpa [hq] using hq'
  rw [hindex] at hindex'
  cases hindex'
  omega

/-- Distinct pins are no more than the table of pins has. -/
theorem length_le_pins {ps : List PinId} (hnodup : ps.Nodup)
    (h : ∀ p ∈ ps, ∃ pin, nl.pins[p.toNat]? = some pin) : ps.length ≤ nl.pins.size := by
  have hmap : (ps.map PinId.toNat).Nodup := hnodup.map fun _ _ => PinId.toNat_inj.1
  have hsub : ps.map PinId.toNat ⊆ List.range nl.pins.size := by
    intro i hi
    obtain ⟨p, hp, rfl⟩ := List.mem_map.1 hi
    obtain ⟨pin, hpin⟩ := h p hp
    exact List.mem_range.2 (Array.getElem?_eq_some_iff.1 hpin).1
  simpa using (hmap.subperm hsub).length_le

namespace Consistent

variable {id : NetId} {net : Net}

/-- A net is the one with its id. -/
theorem getElem?_id (h : nl.Consistent) (hnet : net ∈ nl.nets) :
    nl.nets[net.id.toNat]? = some net := by
  obtain ⟨i, hi⟩ := Array.getElem?_of_mem hnet
  rwa [h.nets.ids i net hi]

/-- A pin is a sink of a net only once. -/
theorem sinks_nodup (h : nl.Consistent) (hnet : nl.nets[id.toNat]? = some net) :
    net.sinks.Nodup := by
  refine nodup_of_sinkIndex nl fun i p hp => ?_
  obtain ⟨pin, hpin, -, -, hindex⟩ := h.nets.sink id net hnet i p hp
  exact ⟨pin, hpin, hindex⟩

/-- The driver of a net is none of its sinks. -/
theorem driver_notMem_sinks (h : nl.Consistent) (hnet : nl.nets[id.toNat]? = some net) {p : PinId}
    (hp : net.driver = some p) : p ∉ net.sinks := by
  intro hmem
  obtain ⟨i, hi⟩ := List.getElem?_of_mem hmem
  obtain ⟨q, hq, -, hsink, -⟩ := h.nets.sink id net hnet i p hi
  -- a pin has one direction only
  obtain ⟨q', hq', -, hdriver⟩ := h.nets.driver id net hnet p hp
  obtain rfl : q = q' := by simpa [hq] using hq'
  rw [hsink] at hdriver
  cases hdriver

/-- The pins of a net, the driver first. -/
theorem pins_nodup (h : nl.Consistent) (hnet : nl.nets[id.toNat]? = some net) :
    (net.driver.toList ++ net.sinks).Nodup := by
  cases hdriver : net.driver with
  | none => simpa using h.sinks_nodup hnet
  | some p =>
    simp only [Option.toList_some, List.singleton_append, List.nodup_cons]
    exact ⟨h.driver_notMem_sinks hnet hdriver, h.sinks_nodup hnet⟩

/-- A pin of a net is connected to it. -/
theorem net_of_mem_pins (h : nl.Consistent) (hnet : nl.nets[id.toNat]? = some net) {p : PinId}
    (hp : p ∈ net.driver.toList ++ net.sinks) :
    ∃ pin : Pin, nl.pins[p.toNat]? = some pin ∧ pin.net = some id := by
  obtain hp | hp := List.mem_append.1 hp
  · obtain ⟨pin, hpin, hid, -⟩ := h.nets.driver id net hnet p (by simpa using hp)
    exact ⟨pin, hpin, hid⟩
  · obtain ⟨i, hi⟩ := List.getElem?_of_mem hp
    obtain ⟨pin, hpin, hid, -⟩ := h.nets.sink id net hnet i p hi
    exact ⟨pin, hpin, hid⟩

/-- A pin that is connected to a net is one of its pins. -/
theorem mem_pins_of_net (h : nl.Consistent) (hnet : nl.nets[id.toNat]? = some net) {p : PinId}
    {pin : Pin} (hpin : nl.pins[p.toNat]? = some pin) (hid : pin.net = some id) :
    p ∈ net.driver.toList ++ net.sinks := by
  obtain ⟨net', hnet', hrole⟩ := h.nets.netOf p pin id hpin hid
  obtain rfl : net = net' := by simpa [hnet] using hnet'
  rw [List.mem_append]
  split at hrole
  · exact .inl (by simp [hrole])
  · obtain ⟨i, -, hi⟩ := hrole
    exact .inr (List.mem_of_getElem? hi)

/-- A net has no more pins than there are. -/
theorem length_pins_le (h : nl.Consistent) (hnet : nl.nets[id.toNat]? = some net) :
    (net.driver.toList ++ net.sinks).length ≤ nl.pins.size := by
  refine length_le_pins (h.pins_nodup hnet) fun p hp => ?_
  obtain ⟨pin, hpin, -⟩ := h.net_of_mem_pins hnet hp
  exact ⟨pin, hpin⟩

/-- A net has no more sinks than there are pins. -/
theorem length_sinks_le (h : nl.Consistent) (hnet : nl.nets[id.toNat]? = some net) :
    net.sinks.length ≤ nl.pins.size := by
  have hle := h.length_pins_le hnet
  rw [List.length_append] at hle
  omega

/-- The sinks of a net, and its driver beside them, can be counted by a word of 32 bits. -/
theorem length_sinks_lt (h : nl.Consistent) (hnet : nl.nets[id.toNat]? = some net)
    (hdriver : net.driver.isSome) : net.sinks.length + 1 < Word.size32 := by
  obtain ⟨p, hp⟩ := Option.isSome_iff_exists.1 hdriver
  have hle := h.length_pins_le hnet
  rw [hp, List.length_append] at hle
  have hroom := h.pinRoom
  simp only [Option.toList_some, List.length_singleton] at hle
  omega

end Consistent

/-! ## What agreement depends on -/

/-- What pins refer to in a block. -/
def wiringOfBlock (b : Block) : BlockId × List PinId := (b.id, b.pins)

/-- What pins refer to in a net. -/
def wiringOfNet (n : Net) : NetId × Option PinId × List PinId := (n.id, n.driver, n.sinks)

/-- Two netlists with the same connections: they may differ in names, locations and in which nets
are ignored. -/
structure SameWiring (nl nl' : Netlist) : Prop where
  pins : nl'.pins = nl.pins
  blocks : nl'.blocks.map wiringOfBlock = nl.blocks.map wiringOfBlock
  nets : nl'.nets.map wiringOfNet = nl.nets.map wiringOfNet

/-- Changing an item in what is not looked at changes nothing. -/
theorem map_modify_eq {α β : Type} {xs : Array α} {i : Nat} {f : α → α} {g : α → β}
    (h : ∀ x, g (f x) = g x) : (xs.modify i f).map g = xs.map g := by
  apply Array.ext_getElem?
  intro j
  rw [Array.getElem?_map, Array.getElem?_map, Array.getElem?_modify]
  split
  · rw [Option.map_map, show g ∘ f = g from funext h]
  · rfl

namespace SameWiring

theorem block (h : SameWiring nl nl') {i : Nat} {block' : Block}
    (hblock : nl'.blocks[i]? = some block') :
    ∃ block, nl.blocks[i]? = some block ∧ block.id = block'.id ∧ block.pins = block'.pins := by
  have hmap := congrArg (·[i]?) h.blocks
  simp only [Array.getElem?_map, hblock, Option.map_some] at hmap
  obtain ⟨block, hold, heq⟩ := Option.map_eq_some_iff.1 hmap.symm
  exact ⟨block, hold, congrArg Prod.fst heq, congrArg Prod.snd heq⟩

theorem net (h : SameWiring nl nl') {i : Nat} {net' : Net} (hnet : nl'.nets[i]? = some net') :
    ∃ net, nl.nets[i]? = some net ∧ net.id = net'.id ∧ net.driver = net'.driver ∧
      net.sinks = net'.sinks := by
  have hmap := congrArg (·[i]?) h.nets
  simp only [Array.getElem?_map, hnet, Option.map_some] at hmap
  obtain ⟨net, hold, heq⟩ := Option.map_eq_some_iff.1 hmap.symm
  exact ⟨net, hold, congrArg Prod.fst heq, congrArg (·.2.1) heq, congrArg (·.2.2) heq⟩

theorem symm (h : SameWiring nl nl') : SameWiring nl' nl :=
  ⟨h.pins.symm, h.blocks.symm, h.nets.symm⟩

/-- **Agreement depends on the connections only.** -/
theorem consistent (h : SameWiring nl nl') (hnl : nl.Consistent) : nl'.Consistent where
  blocks := by
    refine ⟨?_, ?_, ?_, ?_, ?_⟩
    · have hsize := congrArg Array.size h.blocks
      simp only [Array.size_map] at hsize
      exact hsize ▸ hnl.blocks.room
    · intro i block' hblock
      obtain ⟨block, hold, hid, -⟩ := h.block hblock
      exact hid ▸ hnl.blocks.ids i block hold
    · intro id block' hblock p
      obtain ⟨block, hold, -, hpins⟩ := h.block hblock
      rw [← hpins, h.pins]
      exact hnl.blocks.lists id block hold p
    · intro i block' hblock
      obtain ⟨block, hold, -, hpins⟩ := h.block hblock
      exact hpins ▸ hnl.blocks.once i block hold
    · intro i pin hpin
      rw [h.pins] at hpin
      obtain ⟨block, hblock⟩ := hnl.blocks.blockOf i pin hpin
      obtain ⟨block', hblock', -⟩ := h.symm.block hblock
      exact ⟨block', hblock'⟩
  nets := by
    refine ⟨?_, ?_, ?_, ?_, ?_⟩
    · have hsize := congrArg Array.size h.nets
      simp only [Array.size_map] at hsize
      exact hsize ▸ hnl.nets.room
    · intro i net' hnet
      obtain ⟨net, hold, hid, -⟩ := h.net hnet
      exact hid ▸ hnl.nets.ids i net hold
    · intro id net' hnet p hp
      obtain ⟨net, hold, -, hdriver, -⟩ := h.net hnet
      rw [h.pins]
      exact hnl.nets.driver id net hold p (hdriver ▸ hp)
    · intro id net' hnet i p hp
      obtain ⟨net, hold, -, -, hsinks⟩ := h.net hnet
      rw [h.pins]
      exact hnl.nets.sink id net hold i p (hsinks ▸ hp)
    · intro p pin id hpin hid
      rw [h.pins] at hpin
      obtain ⟨net, hnet, hrole⟩ := hnl.nets.netOf p pin id hpin hid
      obtain ⟨net', hnet', -, hdriver, hsinks⟩ := h.symm.net hnet
      exact ⟨net', hnet', by rwa [hdriver, hsinks]⟩
  pinRoom := h.pins ▸ hnl.pinRoom
  pinIds := h.pins ▸ hnl.pinIds

end SameWiring

/-- Which nets are ignored is no part of the connections. -/
theorem sameWiring_setIgnored {net : NetId} {ignored : Bool}
    (h : nl.setIgnored net ignored = .ok nl') : SameWiring nl nl' := by
  obtain ⟨-, rfl⟩ := updateNet_eq_ok.1 h
  refine ⟨rfl, rfl, ?_⟩
  dsimp only
  apply map_modify_eq
  intro net
  rfl

/-- Locations are no part of the connections. -/
theorem sameWiring_place {block : BlockId} {location : Location}
    (h : nl.place block location = .ok nl') : SameWiring nl nl' := by
  obtain ⟨-, rfl⟩ := updateBlock_eq_ok.1 h
  refine ⟨rfl, ?_, rfl⟩
  dsimp only
  apply map_modify_eq
  intro block
  rfl

end Netlist

end WireCost
