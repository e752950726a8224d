import WireCost.Proofs.Device
import WireCost.Proofs.Netlist.Sites

/-! # Placements near the device

* **`Location.spot`** — the place of a pin, whether or not its coordinates are words;
  **`Netlist.siteOf_eq_ok`** — a pin has a site when they are.
* **`Netlist.InWords`** — the places of all pins that count are words;
  **`Netlist.Consistent.sited`** — then they have interior sites, if all blocks are on layers of the
  device.
* **`Site.IsNear`** — a place on a layer of the device, so close that distances are words.
* **`Netlist.Near`** — the pins that count are at such places, so that they have sites.
* **`Netlist.Near.apply`** — moves to such places keep that up. -/

namespace WireCost

/-! ## Places of pins -/

/-- The place of a pin at `offset` from a block at `l`, whether or not its coordinates are words. -/
def Location.spot (l : Location) (offset : Offset) : Site :=
  ⟨l.x.toInt + offset.dx.toInt, l.y.toInt + offset.dy.toInt, l.layer.toInt⟩

/-- **A place near the device:** it is on a layer of the device, at a column and a row so small that
the distance of two such places along the grid is a word. -/
structure Site.IsNear (layers : Nat) (s : Site) : Prop where
  column : s.x.natAbs < 2 ^ 29
  row : s.y.natAbs < 2 ^ 29
  layer : 0 ≤ s.layer ∧ s.layer < layers

instance (layers : Nat) (s : Site) : Decidable (s.IsNear layers) :=
  decidable_of_iff
    (s.x.natAbs < 2 ^ 29 ∧ s.y.natAbs < 2 ^ 29 ∧ 0 ≤ s.layer ∧ s.layer < layers)
    ⟨fun ⟨hx, hy, hlayer⟩ => ⟨hx, hy, hlayer⟩, fun h => ⟨h.column, h.row, h.layer⟩⟩

/-- The column and the row of a place are words. -/
def Site.IsWord (s : Site) : Prop := Word.IsInt32 s.x ∧ Word.IsInt32 s.y

instance (s : Site) : Decidable s.IsWord := inferInstanceAs (Decidable (_ ∧ _))

theorem Site.IsNear.isWord {layers : Nat} {s : Site} (h : s.IsNear layers) : s.IsWord := by
  have hcolumn := h.column
  have hrow := h.row
  unfold Site.IsWord Word.IsInt32
  omega

/-- **A pin has a site** when the coordinates of its place are words, and then it is that place. -/
theorem Location.siteAt_eq_ok {l : Location} {offset : Offset} {s : Site} :
    l.siteAt offset = .ok s ↔ (l.spot offset).IsWord ∧ l.spot offset = s := by
  simp only [siteAt, Checked.bind_eq_ok, Word.int32_eq_ok, Except.ok.injEq]
  constructor
  · rintro ⟨_, ⟨hx, rfl⟩, _, ⟨hy, rfl⟩, rfl⟩
    exact ⟨⟨hx, hy⟩, rfl⟩
  · rintro ⟨⟨hx, hy⟩, rfl⟩
    exact ⟨_, ⟨hx, rfl⟩, _, ⟨hy, rfl⟩, rfl⟩

/-- The place of a pin, if there is the pin and its block. -/
def Netlist.spot? (nl : Netlist) (p : PinId) : Option Site := do
  let pin ← nl.pins[p.toNat]?
  let block ← nl.blocks[pin.block.toNat]?
  some (block.location.spot pin.offset)

theorem Netlist.spot?_eq_some {nl : Netlist} {p : PinId} {s : Site} : nl.spot? p = some s ↔
    ∃ pin block, nl.pins[p.toNat]? = some pin ∧ nl.blocks[pin.block.toNat]? = some block ∧
      block.location.spot pin.offset = s := by
  simp only [spot?, Option.bind_eq_bind, Option.bind_eq_some_iff, Option.some.injEq]
  constructor
  · rintro ⟨pin, hpin, block, hblock, h⟩
    exact ⟨pin, block, hpin, hblock, h⟩
  · rintro ⟨pin, block, hpin, hblock, h⟩
    exact ⟨pin, hpin, block, hblock, h⟩

/-- **A pin of a netlist has a site** when the coordinates of its place are words. -/
theorem Netlist.siteOf_eq_ok {nl : Netlist} {p : PinId} {s : Site} :
    nl.siteOf p = .ok s ↔ nl.spot? p = some s ∧ s.IsWord := by
  simp only [siteOf, Netlist.pin, Netlist.block, Checked.bind_eq_ok, entry_eq_ok,
    Location.siteAt_eq_ok, spot?_eq_some]
  constructor
  · rintro ⟨pin, hpin, block, hblock, hword, rfl⟩
    exact ⟨⟨pin, block, hpin, hblock, rfl⟩, hword⟩
  · rintro ⟨⟨pin, block, hpin, hblock, rfl⟩, hword⟩
    exact ⟨pin, hpin, block, hblock, hword, rfl⟩

/-! ## Places that are words -/

namespace Netlist

variable {nl : Netlist} {n : NetId} {net : Net} {driver p : PinId} {i : Interior} {s : Site}

/-- **The places of all pins that count are words.** -/
def InWords (nl : Netlist) : Prop :=
  ∀ net ∈ nl.nets, net.ignored = false → ∀ p ∈ net.driver.toList ++ net.sinks,
    ∀ s ∈ nl.spot? p, s.IsWord

instance (nl : Netlist) : Decidable nl.InWords :=
  inferInstanceAs (Decidable (∀ net ∈ nl.nets, _ → ∀ p ∈ _, ∀ s ∈ nl.spot? p, _))

/-- A pin is on the layer of its block. -/
theorem layer_of_spot? (h : nl.spot? p = some s) : ∃ b ∈ nl.blocks,
    s.layer = b.location.layer.toInt := by
  obtain ⟨pin, block, -, hblock, rfl⟩ := spot?_eq_some.1 h
  exact ⟨block, Array.mem_of_getElem? hblock, rfl⟩

/-- **A pin has an interior site** when its place is one of words, if all blocks are on layers of
the interior. -/
theorem exists_siteIn_iff (hopen : i.IsOpen)
    (hblocks : ∀ b ∈ nl.blocks, i.HasLayer b.location.layer.toInt) (hspot : nl.spot? p = some s) :
    (∃ t, nl.siteIn i p = .ok t) ↔ s.IsWord := by
  have hlayer : i.HasLayer s.layer := by
    obtain ⟨b, hb, heq⟩ := layer_of_spot? hspot
    exact heq ▸ hblocks b hb
  simp only [siteIn, Checked.bind_eq_ok, siteOf_eq_ok, Interior.clip_eq_ok]
  constructor
  · rintro ⟨t, s', ⟨hspot', hword⟩, -⟩
    obtain rfl := Option.some.inj (hspot.symm.trans hspot')
    exact hword
  · exact fun hword => ⟨_, s, ⟨hspot, hword⟩, ⟨hlayer, hopen.columns, hopen.rows⟩, rfl⟩

/-- **All pins of a net have interior sites** when they have places, which are words. -/
theorem sited_of_spots (hopen : i.IsOpen)
    (hblocks : ∀ b ∈ nl.blocks, i.HasLayer b.location.layer.toInt)
    (hdriver : net.driver = some driver)
    (hspots : ∀ p ∈ net.driver.toList ++ net.sinks, ∃ s, nl.spot? p = some s)
    (hwords : ∀ p ∈ net.driver.toList ++ net.sinks, ∀ s ∈ nl.spot? p, s.IsWord) :
    nl.Sited i net driver := by
  rw [hdriver] at hspots hwords
  intro p hp
  obtain ⟨s, hspot⟩ := hspots p hp
  obtain ⟨t, ht⟩ := (exists_siteIn_iff hopen hblocks hspot).2 (hwords p hp s hspot)
  rw [siteMap_of_siteIn ht, ht]

namespace Consistent

/-- The pins of every net have places. -/
theorem exists_spot (h : nl.Consistent) (hnet : nl.nets[n.toNat]? = some net)
    (hp : p ∈ net.driver.toList ++ net.sinks) : ∃ s, nl.spot? p = some s := by
  obtain ⟨pin, hpin, -⟩ := h.net_of_mem_pins hnet hp
  obtain ⟨block, hblock⟩ := h.blocks.blockOf _ pin hpin
  exact ⟨_, spot?_eq_some.2 ⟨pin, block, hpin, hblock, rfl⟩⟩

/-- **All pins of a net have interior sites** when their places are words. -/
theorem sited (h : nl.Consistent) (hopen : i.IsOpen)
    (hblocks : ∀ b ∈ nl.blocks, i.HasLayer b.location.layer.toInt)
    (hnet : nl.nets[n.toNat]? = some net) (hdriver : net.driver = some driver)
    (hwords : ∀ p ∈ net.driver.toList ++ net.sinks, ∀ s ∈ nl.spot? p, s.IsWord) :
    nl.Sited i net driver :=
  sited_of_spots hopen hblocks hdriver (fun _ => h.exists_spot hnet) hwords

end Consistent

end Netlist

/-! ## Placements -/

namespace Netlist

/-- A pin counts if it is connected to a net that is not ignored. -/
def HasCounted (nl : Netlist) (pin : Pin) : Prop :=
  ∃ n net, pin.net = some n ∧ nl.nets[n.toNat]? = some net ∧ net.ignored = false

/-- **All pins that count are near the device.** -/
def Near (layers : Nat) (nl : Netlist) : Prop :=
  ∀ pin ∈ nl.pins, nl.HasCounted pin → ∀ block, nl.blocks[pin.block.toNat]? = some block →
    (block.location.spot pin.offset).IsNear layers

end Netlist

/-- **A move near the device** takes the pins of its blocks to places near the device. -/
def Move.IsNear (layers : Nat) (nl : Netlist) (m : Move) : Prop :=
  ∀ r ∈ m.relocations, ∀ pin ∈ nl.pins, pin.block = r.block →
    (r.target.spot pin.offset).IsNear layers

instance (layers : Nat) (nl : Netlist) (m : Move) : Decidable (m.IsNear layers nl) :=
  inferInstanceAs (Decidable (∀ r ∈ m.relocations, ∀ pin ∈ nl.pins, _ → _))

namespace Netlist

variable {nl placed : Netlist} {layers : Nat} {m : Move} {n : NetId} {net : Net} {p driver : PinId}
  {i : Interior}

/-- **A move near the device** leaves all pins that count near the device. -/
theorem Near.apply (h : nl.Near layers) (hnear : m.IsNear layers nl) (hm : m.Fits nl)
    (happly : nl.apply m = .ok placed) : placed.Near layers := by
  obtain rfl := (apply_eq_ok hm).1 happly
  intro pin hpin hcounts block hblock
  rw [getElem?_relocate] at hblock
  obtain ⟨old, hold, rfl⟩ := Option.map_eq_some_iff.1 hblock
  -- a pin moves with its block or stays where it is
  by_cases hmoves : ∃ r ∈ m.relocations, pin.block = r.block
  · obtain ⟨r, hr, hpinBlock⟩ := hmoves
    rw [hpinBlock, relocateBlock_of_mem hm.distinct hr]
    exact hnear r hr pin hpin hpinBlock
  · have hstay : ∀ r ∈ m.relocations, r.block.toNat ≠ pin.block.toNat := fun r hr heq =>
      hmoves ⟨r, hr, (BlockId.toNat_inj.1 heq).symm⟩
    rw [relocateBlock_of_forall_ne hstay]
    exact h pin hpin hcounts old hold

/-- **A pin of a net that is not ignored** has a site near the device. -/
theorem Near.exists_siteOf (h : nl.Near layers) (hnl : nl.Consistent)
    (hnet : nl.nets[n.toNat]? = some net) (hcounted : net.ignored = false)
    (hp : p ∈ net.driver.toList ++ net.sinks) : ∃ (l : Location) (offset : Offset),
      nl.siteOf p = .ok (l.spot offset) ∧ (l.spot offset).IsNear layers := by
  obtain ⟨pin, hpin, hid⟩ := hnl.net_of_mem_pins hnet hp
  obtain ⟨block, hblock⟩ := hnl.blocks.blockOf _ pin hpin
  have hnear := h pin (Array.mem_of_getElem? hpin) ⟨n, net, hid, hnet, hcounted⟩ block hblock
  exact ⟨block.location, pin.offset,
    siteOf_eq_ok.2 ⟨spot?_eq_some.2 ⟨pin, block, hpin, hblock, rfl⟩, hnear.isWord⟩, hnear⟩

/-- **All pins of a net that is not ignored** have interior sites. -/
theorem Near.sited (h : nl.Near i.layers) (hnl : nl.Consistent)
    (hnet : nl.nets[n.toNat]? = some net) (hcounted : net.ignored = false)
    (hdriver : net.driver = some driver) (hcolumns : 1 ≤ i.columns) (hrows : 1 ≤ i.rows) :
    nl.Sited i net driver := by
  intro p hp
  obtain ⟨l, offset, hsite, hnear⟩ := h.exists_siteOf hnl hnet hcounted (p := p) (by
    rw [hdriver]
    exact hp)
  have hclip := Interior.clip_eq_ok.2 ⟨⟨hnear.layer, hcolumns, hrows⟩, rfl⟩
  rw [siteMap, siteIn, hsite, Checked.ok_bind, hclip]

end Netlist

end WireCost
