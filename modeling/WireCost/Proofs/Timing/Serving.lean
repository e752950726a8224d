import WireCost.Proofs.Netlist.Near
import WireCost.Proofs.Timing.Table

/-! # Timing inputs that serve a netlist

* **`LinearDelay.exists_between`** — a delay linear in distance can be told for two places near the
  device.
* **`Criticality.IsFor`** — a table of criticalities with an entry for every connection.
* **`TimingInputs.Serves`** — inputs with a delay and a criticality for each connection that counts,
  so that it can be timed.
* **`TimingInputs.serves_manhattan`** — delays linear in distance serve any placement near the
  device. -/

namespace WireCost

/-! ## Distances -/

/-- The distance of two coordinates has to be a word. -/
theorem gap_eq_ok {a b n : Int} :
    gap a b = .ok n ↔ (a - b).natAbs < Word.size31 ∧ ((a - b).natAbs : Int) = n := by
  rw [gap, Checked.bind_eq_ok]
  simp only [Word.int32_eq_ok, Word.IsInt32, Word.size31]
  constructor
  · rintro ⟨_, ⟨-, rfl⟩, hword, rfl⟩
    exact ⟨by omega, rfl⟩
  · rintro ⟨hlt, rfl⟩
    exact ⟨a - b, ⟨by omega, rfl⟩, by omega, rfl⟩

theorem gap_nonneg {a b n : Int} (h : gap a b = .ok n) : 0 ≤ n := by
  obtain ⟨-, rfl⟩ := gap_eq_ok.1 h
  exact Int.natCast_nonneg _

variable {δ α : Type} [DelayScalar δ α] {layers : Nat}

/-- The distance of two sites along the grid. -/
def Site.gridDistance (a b : Site) : Nat := (a.x - b.x).natAbs + (a.y - b.y).natAbs

/-- **A delay linear in distance** can be told when the distance along the grid and the number of
layers crossed are words. -/
theorem LinearDelay.exists_between_iff (d : LinearDelay δ) {a b : Site} :
    (∃ delay, d.between a b = .ok delay) ↔
      a.gridDistance b < Word.size31 ∧ (a.layer - b.layer).natAbs < Word.size31 := by
  simp only [between, Checked.bind_eq_ok, gap_eq_ok, Word.int32_eq_ok, Word.IsInt32,
    Word.size31, Site.gridDistance]
  constructor
  · rintro ⟨_, _, ⟨-, rfl⟩, _, ⟨-, rfl⟩, _, ⟨htiles, -⟩, _, ⟨hlayers, -⟩, -⟩
    exact ⟨by omega, hlayers⟩
  · rintro ⟨htiles, hlayers⟩
    exact ⟨_, _, ⟨by omega, rfl⟩, _, ⟨by omega, rfl⟩, _, ⟨by omega, rfl⟩, _, ⟨hlayers, rfl⟩, rfl⟩

/-- The number of layers between two pins of blocks on layers that are not negative is a word. -/
theorem Location.layers_lt {l l' : Location} (h : 0 ≤ l.layer.toInt) (h' : 0 ≤ l'.layer.toInt) :
    (l.layer.toInt - l'.layer.toInt).natAbs < Word.size31 := by
  have hlt := l.layer.toInt_lt
  have hlt' := l'.layer.toInt_lt
  simp only [Word.size31]
  omega

/-- So it can for two places near the device. -/
theorem LinearDelay.exists_between (d : LinearDelay δ) {l l' : Location} {offset offset' : Offset}
    (h : (l.spot offset).IsNear layers) (h' : (l'.spot offset').IsNear layers) :
    ∃ delay, d.between (l.spot offset) (l'.spot offset') = .ok delay := by
  have hcolumn := h.column
  have hrow := h.row
  have hcolumn' := h'.column
  have hrow' := h'.row
  refine d.exists_between_iff.2 ⟨?_, Location.layers_lt h.layer.1 h'.layer.1⟩
  simp only [Site.gridDistance, Word.size31]
  omega

/-! ## Criticalities -/

/-- **A table of criticalities for a netlist:** it has an entry for every connection. -/
structure Criticality.IsFor (c : Criticality δ) (nl : Netlist) : Prop where
  offsets : c.offsets = connectionOffsets nl
  values : c.values.size = connectionCount (connectionOffsets nl)

namespace Criticality

theorem isFor_uniform (nl : Netlist) (value : δ) : (uniform nl value).IsFor nl :=
  ⟨rfl, Array.size_replicate⟩

/-- A table for a netlist is one for every placement of it. -/
theorem IsFor.congr {c : Criticality δ} {nl placed : Netlist} (h : c.IsFor nl)
    (hnets : placed.nets = nl.nets) : c.IsFor placed := by
  have hoffsets := connectionOffsets_congr hnets
  exact ⟨h.offsets.trans hoffsets.symm, by rw [h.values, hoffsets]⟩

/-- Changing a criticality keeps the table one for the netlist. -/
theorem IsFor.set {c c' : Criticality δ} {nl : Netlist} {n : NetId} {sink : Nat} {value : δ}
    (h : c.IsFor nl) (hset : c.set n sink value = .ok c') : c'.IsFor nl := by
  obtain ⟨slot, -, hset⟩ := Checked.bind_eq_ok.1 hset
  obtain ⟨next, -, hset⟩ := Checked.bind_eq_ok.1 hset
  obtain ⟨-, -, hset⟩ := Checked.bind_eq_ok.1 hset
  obtain ⟨old, -, heq⟩ := Checked.bind_eq_ok.1 hset
  cases heq
  exact ⟨h.offsets, Array.size_setIfInBounds.trans h.values⟩

/-- Every connection has a criticality. -/
theorem IsFor.exists_get {c : Criticality δ} {nl : Netlist} {n : NetId} {sink : Nat}
    (h : c.IsFor nl) (hnl : nl.Numbered) (hc : nl.HasConnection n sink) :
    ∃ weight, c.get n sink = .ok weight := by
  have hlt : nl.slotOf n sink < c.values.size := by
    rw [h.values]
    exact hc.slotOf_lt
  refine ⟨c.values[nl.slotOf n sink], ?_⟩
  rw [get, h.offsets, hc.connectionSlot_eq hnl, Checked.ok_bind,
    entry_of_some (Array.getElem?_eq_getElem hlt)]

end Criticality

/-! ## Timing inputs -/

namespace TimingInputs

/-- **Timing inputs that serve a netlist** at its placement: there is a delay and a criticality for
each connection that counts. -/
structure Serves (nl : Netlist) (inputs : TimingInputs δ) : Prop where
  delay : ∀ c ∈ nl.countedConnections, ∃ delay, inputs.delay nl c.1 c.2 = .ok delay
  criticality : ∀ c ∈ nl.countedConnections, ∃ weight, inputs.criticality c.1 c.2 = .ok weight

/-- **A connection that counts can be timed.** -/
theorem Serves.exists_timed [CostScalar α] {inputs : TimingInputs δ} {nl : Netlist}
    {c : NetId × Nat} (h : inputs.Serves nl) (hc : c ∈ nl.countedConnections) :
    ∃ timed : Connection δ α, inputs.timed nl c = .ok timed := by
  obtain ⟨delay, hdelay⟩ := h.delay c hc
  obtain ⟨weight, hweight⟩ := h.criticality c hc
  exact ⟨⟨delay, DelayScalar.toCost weight * DelayScalar.toCost delay⟩,
    timed_eq_ok.2 ⟨hdelay, weight, hweight, rfl⟩⟩

/-- **Delays linear in distance** serve a netlist whose pins are near the device, together with a
table of criticalities for it, if the nets that count are driven. -/
theorem serves_manhattan (d : LinearDelay δ) {c : Criticality δ} {nl : Netlist} (hc : c.IsFor nl)
    (hnl : nl.Consistent) (hnear : nl.Near layers)
    (hdriven : ∀ net ∈ nl.nets, net.ignored = false → net.driver.isSome) :
    Serves nl ⟨manhattan d, c.get⟩ where
  delay conn hconn := by
    obtain ⟨net, hnet, hcounted, hsink⟩ :=
      (Netlist.mem_countedConnections hnl.nets.room.le).1 hconn
    obtain ⟨driver, hdriver⟩ :=
      Option.isSome_iff_exists.1 (hdriven net (Array.mem_of_getElem? hnet) hcounted)
    -- both ends are near the device
    obtain ⟨l, offset, hsource, hsourceNear⟩ :=
      hnear.exists_siteOf hnl hnet hcounted (p := driver) (by simp [hdriver])
    obtain ⟨l', offset', htarget, htargetNear⟩ :=
      hnear.exists_siteOf hnl hnet hcounted (p := net.sinks[conn.2]) (by simp)
    obtain ⟨delay, hdelay⟩ := d.exists_between hsourceNear htargetNear
    have hends : nl.endsOf conn.1 conn.2 = .ok (l.spot offset, l'.spot offset') :=
      Netlist.endsOf_eq_ok.2 ⟨net, driver, _, hnet, hdriver, List.getElem?_eq_getElem hsink,
        hsource, htarget⟩
    exact ⟨delay, manhattan_eq_ok.2 ⟨_, hends, hdelay⟩⟩
  criticality _ hconn :=
    hc.exists_get hnl.numbered (Netlist.hasConnection_of_mem_counted hconn)

end TimingInputs

end WireCost
