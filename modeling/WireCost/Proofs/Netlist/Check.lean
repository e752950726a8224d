import WireCost.Netlist.Check
import WireCost.Proofs.Engine.Reachable
import WireCost.Proofs.Netlist.Built

/-! # What the check of a netlist establishes

The check follows the references from nets to pins and from pins to blocks. It does not follow those
from pins to nets and from blocks to pins, and it reads ids as they stand.

* **`Netlist.WellFormed`** — the references that the check follows fit; **`Netlist.check_eq_ok`**.
* **`Netlist.Unchecked`** — the references that it does not follow fit.
* **`Netlist.Built.check_iff`** — a built netlist passes the check when its nets are driven.
* **`Netlist.check_unchecked_iff`** — a netlist has agreeing tables and driven nets exactly when it
  passes the check and the unchecked references fit.
* **`Netlist.check_passes_dangling`** — a netlist that passes and stops a move that is evaluated. -/

namespace WireCost

namespace Netlist

variable {nl : Netlist}

/-! ## The references that are followed -/

/-- **The references that the check follows fit:** every net has a driver, its sinks are connected
to it and number themselves in order, and every pin is listed on its block. -/
structure WellFormed (nl : Netlist) : Prop where
  driver : ∀ net ∈ nl.nets, ∃ p pin, net.driver = some p ∧ nl.pins[p.toNat]? = some pin ∧
    pin.net = some net.id ∧ pin.direction = .driver
  sink : ∀ net ∈ nl.nets, ∀ (i : Nat) (p : PinId), net.sinks[i]? = some p →
    ∃ pin, nl.pins[p.toNat]? = some pin ∧ pin.net = some net.id ∧
      pin.sinkIndex.map (·.toNat) = some i
  listed : ∀ pin ∈ nl.pins, ∃ block, nl.blocks[pin.block.toNat]? = some block ∧
    pin.id ∈ block.pins

theorem checkDriver_eq_ok {net : Net} : nl.checkDriver net = .ok () ↔
    ∃ p pin, net.driver = some p ∧ nl.pins[p.toNat]? = some pin ∧ pin.net = some net.id ∧
      pin.direction = .driver := by
  unfold checkDriver
  split
  case h_1 hdriver => simp [hdriver]
  case h_2 p hdriver =>
    split
    case h_1 hpin => simp [hdriver, hpin]
    case h_2 pin hpin => simp [hdriver, hpin]

theorem checkSink_eq_ok {net : Net} {p : PinId} {i : Nat} : nl.checkSink net p i = .ok () ↔
    ∃ pin, nl.pins[p.toNat]? = some pin ∧ pin.net = some net.id ∧
      pin.sinkIndex.map (·.toNat) = some i := by
  unfold checkSink
  split
  case h_1 hpin => simp [hpin]
  case h_2 pin hpin => simp [hpin]

theorem checkPin_eq_ok {pin : Pin} : nl.checkPin pin = .ok () ↔
    ∃ block, nl.blocks[pin.block.toNat]? = some block ∧ pin.id ∈ block.pins := by
  unfold checkPin
  split
  case h_1 hblock => simp [hblock]
  case h_2 block hblock => simp [hblock]

theorem checkNet_eq_ok {net : Net} : nl.checkNet net = .ok () ↔
    nl.checkDriver net = .ok () ∧
      ∀ (i : Nat) (p : PinId), net.sinks[i]? = some p → nl.checkSink net p i = .ok () := by
  rw [checkNet]
  cases nl.checkDriver net with
  | error defect => simp [bind, Except.bind]
  | ok u =>
    rw [and_iff_right rfl]
    refine Checked.forM_eq_ok.trans ⟨fun h i p hp => ?_, fun h x hx => ?_⟩
    · exact h (p, i) (List.mem_zipIdx_iff_getElem?.2 hp)
    · exact h x.2 x.1 (List.mem_zipIdx_iff_getElem?.1 hx)

/-- **A netlist passes the check** exactly when the references that it follows fit. -/
theorem check_eq_ok : nl.check = .ok () ↔ nl.WellFormed := by
  have hparts : nl.check = .ok () ↔
      (∀ net ∈ nl.nets, nl.checkNet net = .ok ()) ∧ ∀ pin ∈ nl.pins, nl.checkPin pin = .ok () := by
    simp only [← Array.mem_toList_iff, ← Checked.forM_eq_ok, check]
    cases nl.nets.toList.forM nl.checkNet <;> simp [bind, Except.bind]
  simp only [hparts, checkNet_eq_ok, checkDriver_eq_ok, checkSink_eq_ok, checkPin_eq_ok]
  constructor
  · rintro ⟨hnets, hpins⟩
    exact ⟨fun net hnet => (hnets net hnet).1, fun net hnet => (hnets net hnet).2, hpins⟩
  · intro h
    exact ⟨fun net hnet => ⟨h.driver net hnet, h.sink net hnet⟩, h.listed⟩

namespace WellFormed

variable {net : Net}

/-- All nets are driven. -/
theorem driven (h : nl.WellFormed) : ∀ net ∈ nl.nets, net.driver.isSome := by
  intro net hnet
  obtain ⟨p, -, hp, -⟩ := h.driver net hnet
  simp [hp]

/-- A pin is a sink of a net only once. -/
theorem sinks_nodup (h : nl.WellFormed) (hnet : net ∈ nl.nets) : net.sinks.Nodup := by
  refine nodup_of_sinkIndex nl fun i p hp => ?_
  obtain ⟨pin, hpin, -, hindex⟩ := h.sink net hnet i p hp
  exact ⟨pin, hpin, hindex⟩

/-- A net has no more sinks than there are pins. -/
theorem length_sinks_le (h : nl.WellFormed) (hnet : net ∈ nl.nets) :
    net.sinks.length ≤ nl.pins.size := by
  refine length_le_pins (h.sinks_nodup hnet) fun p hp => ?_
  obtain ⟨i, hi⟩ := List.getElem?_of_mem hp
  obtain ⟨pin, hpin, -⟩ := h.sink net hnet i p hi
  exact ⟨pin, hpin⟩

end WellFormed

/-! ## The references that are not followed -/

/-- **What the check does not look at:** that ids are positions, that sinks have the direction of
one, that a connected pin is where its net has it, and that blocks list their own pins only, and
each of them once. -/
structure Unchecked (nl : Netlist) : Prop where
  blockRoom : nl.blocks.size < Word.size32
  netRoom : nl.nets.size < Word.size32
  pinRoom : nl.pins.size < Word.size32
  blockIds : ∀ (i : Nat) (block : Block), nl.blocks[i]? = some block → block.id.toNat = i
  netIds : ∀ (i : Nat) (net : Net), nl.nets[i]? = some net → net.id.toNat = i
  pinIds : ∀ (i : Nat) (pin : Pin), nl.pins[i]? = some pin → pin.id.toNat = i
  sinkDirection : ∀ net ∈ nl.nets, ∀ p ∈ net.sinks, ∀ pin : Pin,
    nl.pins[p.toNat]? = some pin → pin.direction = .sink
  netOf : ∀ (p : PinId) (pin : Pin) (id : NetId), nl.pins[p.toNat]? = some pin →
    pin.net = some id → ∃ net, nl.nets[id.toNat]? = some net ∧
      if pin.direction = .driver then net.driver = some p
      else ∃ i, pin.sinkIndex.map (·.toNat) = some i ∧ net.sinks[i]? = some p
  named : ∀ (id : BlockId) (block : Block), nl.blocks[id.toNat]? = some block →
    ∀ p ∈ block.pins, ∃ pin : Pin, nl.pins[p.toNat]? = some pin ∧ pin.block = id
  once : ∀ (i : Nat) (block : Block), nl.blocks[i]? = some block → block.pins.Nodup

/-- A netlist whose references fit, followed or not, has tables that agree. -/
theorem WellFormed.consistent (h : nl.WellFormed) (hrest : nl.Unchecked) : nl.Consistent where
  blocks := by
    refine ⟨hrest.blockRoom, hrest.blockIds, fun id block hblock p => ⟨?_, ?_⟩, hrest.once, ?_⟩
    · exact hrest.named id block hblock p
    · rintro ⟨pin, hpin, rfl⟩
      obtain ⟨block', hblock', hlisted⟩ := h.listed pin (Array.mem_of_getElem? hpin)
      obtain rfl : block = block' := by simpa [hblock] using hblock'
      rwa [← PinId.toNat_inj.1 (hrest.pinIds _ pin hpin)]
    · intro i pin hpin
      obtain ⟨block, hblock, -⟩ := h.listed pin (Array.mem_of_getElem? hpin)
      exact ⟨block, hblock⟩
  nets := by
    have hid {id : NetId} {net : Net} (hnet : nl.nets[id.toNat]? = some net) : net.id = id :=
      NetId.toNat_inj.1 (hrest.netIds _ net hnet)
    refine ⟨hrest.netRoom, hrest.netIds, ?_, ?_, hrest.netOf⟩
    · intro id net hnet p hp
      obtain ⟨p', pin, hp', hpin, hof, hdirection⟩ := h.driver net (Array.mem_of_getElem? hnet)
      obtain rfl : p = p' := by simpa [hp] using hp'
      exact ⟨pin, hpin, hid hnet ▸ hof, hdirection⟩
    · intro id net hnet i p hp
      have hmem := Array.mem_of_getElem? hnet
      obtain ⟨pin, hpin, hof, hindex⟩ := h.sink net hmem i p hp
      exact ⟨pin, hpin, hid hnet ▸ hof,
        hrest.sinkDirection net hmem p (List.mem_of_getElem? hp) pin hpin, hindex⟩
  pinRoom := hrest.pinRoom
  pinIds := hrest.pinIds

/-- Where the tables agree and all nets are driven, the references that are followed fit. -/
theorem Consistent.wellFormed (h : nl.Consistent)
    (hdriven : ∀ net ∈ nl.nets, net.driver.isSome) : nl.WellFormed := by
  refine ⟨fun net hnet => ?_, fun net hnet i p hp => ?_, fun pin hpin => ?_⟩
  · obtain ⟨p, hp⟩ := Option.isSome_iff_exists.1 (hdriven net hnet)
    obtain ⟨pin, hpin, hof, hdirection⟩ := h.nets.driver net.id net (h.getElem?_id hnet) p hp
    exact ⟨p, pin, hp, hpin, hof, hdirection⟩
  · obtain ⟨pin, hpin, hof, -, hindex⟩ := h.nets.sink net.id net (h.getElem?_id hnet) i p hp
    exact ⟨pin, hpin, hof, hindex⟩
  · obtain ⟨i, hi⟩ := Array.getElem?_of_mem hpin
    obtain ⟨block, hblock⟩ := h.blocks.blockOf i pin hi
    refine ⟨block, hblock, (h.blocks.lists pin.block block hblock pin.id).2 ⟨pin, ?_, rfl⟩⟩
    rwa [h.pinIds i pin hi]

/-- Where the tables agree, the references that are not followed fit as well. -/
theorem Consistent.unchecked (h : nl.Consistent) : nl.Unchecked where
  blockRoom := h.blocks.room
  netRoom := h.nets.room
  pinRoom := h.pinRoom
  blockIds := h.blocks.ids
  netIds := h.nets.ids
  pinIds := h.pinIds
  sinkDirection := by
    intro net hnet p hp pin hpin
    obtain ⟨i, hi⟩ := List.getElem?_of_mem hp
    obtain ⟨pin', hpin', -, hdirection, -⟩ :=
      h.nets.sink net.id net (h.getElem?_id hnet) i p hi
    obtain rfl : pin = pin' := by simpa [hpin] using hpin'
    exact hdirection
  netOf := h.nets.netOf
  named := fun id block hblock p hp => (h.blocks.lists id block hblock p).1 hp
  once := h.blocks.once

/-- **A built netlist passes the check** when its nets are driven. -/
theorem Built.check_iff (h : nl.Built) :
    nl.check = .ok () ↔ ∀ net ∈ nl.nets, net.driver.isSome := by
  rw [check_eq_ok]
  exact ⟨WellFormed.driven, h.consistent.wellFormed⟩

/-- **How much of the agreement the check establishes.** A netlist has agreeing tables and driven
nets exactly when it passes the check and the references that the check does not follow fit. -/
theorem check_unchecked_iff : nl.check = .ok () ∧ nl.Unchecked ↔
    nl.Consistent ∧ ∀ net ∈ nl.nets, net.driver.isSome := by
  rw [check_eq_ok]
  constructor
  · rintro ⟨h, hrest⟩
    exact ⟨h.consistent hrest, h.driven⟩
  · rintro ⟨h, hdriven⟩
    exact ⟨h.wellFormed hdriven, h.unchecked⟩

end Netlist

/-! ## A pin on a missing net -/

namespace Sample

/-- A block with the driver of the only net, and with a pin that is a sink of no net there is. -/
def dangling : Netlist where
  blocks := #[⟨⟨0⟩, "a", ⟨1, 1, 0, 0⟩, [⟨0⟩, ⟨1⟩]⟩]
  nets := #[⟨⟨0⟩, "n", some ⟨0⟩, [], false⟩]
  pins := #[⟨⟨0⟩, ⟨0⟩, some ⟨0⟩, .driver, .zero, none⟩, ⟨⟨1⟩, ⟨0⟩, some ⟨7⟩, .sink, .zero, none⟩]
  blockNames := ∅
  netNames := ∅

/-- The block moves one row up. -/
def lift : Move := ⟨[⟨⟨0⟩, ⟨1, 1, 0, 0⟩, ⟨1, 2, 0, 0⟩⟩]⟩

/-- The netlist after the move. -/
def lifted : Netlist := result (dangling.apply lift) (by decide +kernel)

/-- The new engine for the netlist. -/
def danglingEngine : Engine Rat Rat := (result (start dangling settings) (by decide +kernel)).1

end Sample

namespace Netlist

/-- **The check does not notice a pin on a missing net.** An engine can be built for such a netlist,
but when a move of the block with that pin is evaluated, the engine looks for a net that it does not
have. -/
theorem check_passes_dangling : Sample.dangling.check = .ok () ∧ ¬ Sample.dangling.Consistent ∧
    Sample.lift.Fits Sample.dangling ∧ Sample.dangling.apply Sample.lift = .ok Sample.lifted ∧
    (∃ findings, Engine.ofDevice Sample.dangling Sample.device Sample.settings =
      .ok (.ok (Sample.danglingEngine, findings))) ∧
    Sample.danglingEngine.evaluate Sample.lifted Sample.lift none = .error .outOfRange := by
  refine ⟨by decide +kernel, fun h => ?_, ⟨by decide, fun r hr => ?_⟩,
    Sample.eq_ok_result (by decide +kernel),
    ⟨_, Sample.ofDevice_of_start (Sample.eq_ok_result (by decide +kernel))⟩,
    Sample.eq_error_of_faultOf (by decide +kernel)⟩
  · obtain ⟨net, hnet, -⟩ := h.nets.netOf ⟨1⟩ _ ⟨7⟩
      (Array.getElem?_eq_getElem (by decide +kernel)) (by decide +kernel)
    have hmissing : Sample.dangling.nets[(NetId.mk 7).toNat]? = none := by decide +kernel
    rw [hmissing] at hnet
    cases hnet
  · obtain rfl := List.mem_singleton.1 hr
    exact ⟨_, Array.getElem?_eq_getElem (by decide +kernel), by decide +kernel⟩

end Netlist

end WireCost
