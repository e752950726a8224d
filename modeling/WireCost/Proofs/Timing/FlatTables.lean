import Mathlib.Data.Set.Function
import Mathlib.Order.Interval.Set.Defs
import WireCost.Proofs.Timing.Serving

/-! # Entries of the flat tables

Criticalities and timings stand in flat tables, one entry for each sink of each net. No two of them
share an entry, so that changing one leaves all others alone.

* **`pairwise_connectionOffsets`**, **`bijOn_positions`** — the table of offsets, and the positions
  that it gives to the sinks of all nets.
* **`Criticality.IsFor.set_eq_ok`** — when a criticality can be changed, and what that does.
* **`ConnectionTable.proposing_of_proposeAll`** — connections that are timed one after the other.
* **`flat_tables_never_alias`** — all of it, and what changing one entry does to the others. -/

namespace WireCost

variable {δ α : Type} {nl : Netlist} {n n' : NetId} {sink sink' : Nat}

/-! ## Positions -/

/-- The sinks of all nets, each as the position of its net and its number there. -/
def Netlist.sinkPlaces (nl : Netlist) : Set (Nat × Nat) :=
  {c | ∃ net, nl.nets[c.1]? = some net ∧ c.2 < net.sinks.length}

/-- The entries of the table of offsets. -/
theorem getElem?_connectionOffsets_eq_some {i start : Nat} :
    (connectionOffsets nl)[i]? = some start ↔ i ≤ nl.nets.size ∧ nl.connectionStart i = start := by
  constructor
  · intro h
    have hlt := (Array.getElem?_eq_some_iff.1 h).1
    rw [size_connectionOffsets] at hlt
    have hi := Nat.le_of_lt_succ hlt
    rw [getElem?_connectionOffsets nl hi] at h
    exact ⟨hi, Option.some.inj h⟩
  · rintro ⟨hi, rfl⟩
    exact getElem?_connectionOffsets nl hi

/-- **The offsets never decrease.** -/
theorem pairwise_connectionOffsets (nl : Netlist) :
    (connectionOffsets nl).toList.Pairwise (· ≤ ·) := by
  rw [List.pairwise_iff_getElem]
  intro i j hi hj hij
  have hstart := (getElem?_connectionOffsets_eq_some.1 (Array.getElem?_eq_getElem hi)).2
  have hstart' := (getElem?_connectionOffsets_eq_some.1 (Array.getElem?_eq_getElem hj)).2
  rw [Array.getElem_toList, Array.getElem_toList, ← hstart, ← hstart']
  exact Netlist.connectionStart_mono hij.le

/-- **Every position belongs to one sink,** and every sink to one position. -/
theorem bijOn_positions (nl : Netlist) :
    Set.BijOn (fun c : Nat × Nat => (connectionOffsets nl)[c.1]?.getD 0 + c.2) nl.sinkPlaces
      (Set.Iio (connectionCount (connectionOffsets nl))) := by
  have hoffset {i : Nat} (hi : i ≤ nl.nets.size) :
      (connectionOffsets nl)[i]?.getD 0 = nl.connectionStart i := by
    rw [getElem?_connectionOffsets nl hi, Option.getD_some]
  have hlt {i : Nat} {net : Net} (hnet : nl.nets[i]? = some net) : i < nl.nets.size :=
    (Array.getElem?_eq_some_iff.1 hnet).1
  rw [connectionCount_connectionOffsets]
  refine ⟨?_, ?_, ?_⟩
  · rintro ⟨i, sink⟩ ⟨net, hnet, hsink⟩
    have hnext : nl.connectionStart (i + 1) ≤ nl.connectionStart nl.nets.size :=
      Netlist.connectionStart_mono (hlt hnet)
    simp only [Set.mem_Iio, hoffset (hlt hnet).le]
    exact (Netlist.connectionStart_add_lt hnet hsink).trans_le hnext
  · rintro ⟨i, sink⟩ ⟨net, hnet, hsink⟩ ⟨j, sink'⟩ ⟨net', hnet', hsink'⟩ heq
    simp only [hoffset (hlt hnet).le, hoffset (hlt hnet').le] at heq
    obtain ⟨rfl, rfl⟩ := Netlist.connectionStart_add_inj hnet hsink hnet' hsink' heq
    rfl
  · intro p hp
    obtain ⟨i, net, sink, hnet, hsink, rfl⟩ := Netlist.exists_sink_of_lt le_rfl hp
    exact ⟨(i, sink), ⟨net, hnet, hsink⟩, by simp only [hoffset (hlt hnet).le]⟩

/-- The position that is computed for a sink, whether the net has it or not. -/
theorem connectionSlot_eq_ok {p : Nat} : connectionSlot (connectionOffsets nl) n sink = .ok p ↔
    n.toNat ≤ nl.nets.size ∧ nl.slotOf n sink < Word.size64 ∧ nl.slotOf n sink = p := by
  simp only [connectionSlot, Checked.bind_eq_ok, entry_eq_ok, getElem?_connectionOffsets_eq_some,
    Word.nat64_eq_ok]
  constructor
  · rintro ⟨_, ⟨hn, rfl⟩, hword, rfl⟩
    exact ⟨hn, hword, rfl⟩
  · rintro ⟨hn, hword, rfl⟩
    exact ⟨_, ⟨hn, rfl⟩, hword, rfl⟩

/-! ## Criticalities -/

namespace Criticality.IsFor

variable {c c' : Criticality δ} {value : δ}

/-- **A criticality can be changed** exactly if the net has that sink. -/
theorem set_eq_ok (h : c.IsFor nl) (hnl : nl.Numbered) : c.set n sink value = .ok c' ↔
    nl.HasConnection n sink ∧
      { c with values := c.values.setIfInBounds (nl.slotOf n sink) value } = c' := by
  simp only [Criticality.set, h.offsets, Checked.bind_eq_ok, connectionSlot_eq_ok, entry_eq_ok,
    getElem?_connectionOffsets_eq_some, require_eq_ok, Except.ok.injEq]
  constructor
  · rintro ⟨_, ⟨-, -, rfl⟩, _, ⟨hn, rfl⟩, _, hlt, -, -, heq⟩
    have hnet := Array.getElem?_eq_getElem (show n.toNat < nl.nets.size from hn)
    rw [Netlist.connectionStart_succ hnet, Netlist.slotOf] at hlt
    exact ⟨⟨_, hnet, Nat.lt_of_add_lt_add_left hlt⟩, heq⟩
  · rintro ⟨hc, heq⟩
    have hslot : nl.slotOf n sink < c.values.size := by
      rw [h.values]
      exact hc.slotOf_lt
    have hlt := hc.slotOf_lt_start
    have hword := hc.slotOf_lt.trans hnl
    obtain ⟨net, hnet, -⟩ := hc
    have hn := (Array.getElem?_eq_some_iff.1 hnet).1
    exact ⟨_, ⟨hn.le, hword, rfl⟩, _, ⟨hn, rfl⟩, (), hlt, _, Array.getElem?_eq_getElem hslot, heq⟩

/-- A sink that the net does not have is refused. -/
theorem exists_set_eq_error (h : c.IsFor nl) (hnl : nl.Numbered) (hsink : nl.fanout n ≤ sink)
    (value : δ) : ∃ fault, c.set n sink value = .error fault := by
  cases hset : c.set n sink value with
  | error fault => exact ⟨fault, rfl⟩
  | ok c' =>
    have hc := Netlist.hasConnection_iff.1 ((h.set_eq_ok hnl).1 hset).1
    omega

/-- The criticality of a connection stands at its position. -/
theorem get_eq (h : c.IsFor nl) (hnl : nl.Numbered) (hc : nl.HasConnection n sink) :
    c.get n sink = entry c.values (nl.slotOf n sink) := by
  rw [get, h.offsets, hc.connectionSlot_eq hnl, Checked.ok_bind]

/-- **A criticality that is changed** can be read, and no other one has changed. -/
theorem exists_set (h : c.IsFor nl) (hnl : nl.Numbered) (hc : nl.HasConnection n sink)
    (value : δ) : ∃ c', c.set n sink value = .ok c' ∧ c'.get n sink = .ok value ∧
      ∀ n' sink', nl.HasConnection n' sink' → (n', sink') ≠ (n, sink) →
        c'.get n' sink' = c.get n' sink' := by
  have hset : c.set n sink value = .ok _ := (h.set_eq_ok hnl).2 ⟨hc, rfl⟩
  have h' := h.set hset
  have hslot : nl.slotOf n sink < c.values.size := by
    rw [h.values]
    exact hc.slotOf_lt
  refine ⟨_, hset, ?_, fun n' sink' hc' hne => ?_⟩
  · rw [h'.get_eq hnl hc]
    exact entry_of_some (Array.getElem?_setIfInBounds_self_of_lt hslot)
  · have hother : nl.slotOf n sink ≠ nl.slotOf n' sink' := by
      intro hslots
      obtain ⟨rfl, rfl⟩ := hc.slotOf_inj hc' hslots
      exact hne rfl
    rw [h'.get_eq hnl hc', h.get_eq hnl hc', entry, entry, Array.getElem?_setIfInBounds_ne hother]

end Criticality.IsFor

/-! ## Timings -/

namespace ConnectionTable

variable [CostScalar α] [DelayScalar δ α] {t t' : ConnectionTable δ α} {inputs : TimingInputs δ}
  {connections : List (NetId × Nat)}

/-- **Times some connections for the pending move,** one after the other. -/
def proposeAll (t : ConnectionTable δ α) (nl : Netlist) (inputs : TimingInputs δ)
    (connections : List (NetId × Nat)) : Checked (ConnectionTable δ α) :=
  connections.foldlM (fun t c => Except.map Prod.fst (t.propose nl inputs c.1 c.2)) t

/-- What is proposed for some connections. -/
theorem proposing_of_proposeAll (ht : t.IsFor nl) (hnl : nl.Numbered)
    (hall : ∀ c ∈ connections, nl.HasConnection c.1 c.2)
    (h : t.proposeAll nl inputs connections = .ok t') :
    ∃ delta, Proposing t nl inputs connections t' delta := by
  refine Checked.foldlM_induct (fun done s => ∃ delta, Proposing t nl inputs done s delta)
    ⟨_, .start t nl inputs⟩ ?_ h
  rintro done c rest s s' hsplit ⟨delta, hs⟩ hstep
  obtain ⟨⟨_, change⟩, hpropose, rfl⟩ := Checked.map_eq_ok.1 hstep
  have hc := hall c (by simp [hsplit])
  exact ⟨_, hs.trans (.single (ht.of_sameCommitted hs.same) hnl hc hpropose)⟩

/-- **What a commit makes of the timings:** a connection that was timed and whose delay differs has
its timing at the placement, and every other one keeps what it had. -/
theorem timingOf_commit (ht : t.IsFor nl) (hnl : nl.Numbered) (hidle : t.touched = #[])
    (hall : ∀ c ∈ connections, nl.HasConnection c.1 c.2)
    (h : t.proposeAll nl inputs connections = .ok t') (hc : nl.HasConnection n sink) :
    t'.commit.timingOf n sink =
      if (n, sink) ∈ connections ∧ t.changes nl inputs (n, sink) = true then
        inputs.timed nl (n, sink)
      else t.timingOf n sink := by
  obtain ⟨delta, hproposing⟩ := proposing_of_proposeAll ht hnl hall h
  rw [(ht.of_sameCommitted hproposing.same).commit.timingOf_eq hnl hc]
  split
  · rename_i hchanged
    obtain ⟨timed, htimed, hentry⟩ :=
      hproposing.getElem?_commit_of_changes ht hchanged.1 hchanged.2
    rw [htimed, entry_of_some hentry]
  · rename_i hkept
    rw [ht.timingOf_eq hnl hc, entry, entry,
      hproposing.getElem?_commit_of_notMem ht hidle hc (mt List.mem_filter.1 hkept)]

end ConnectionTable

/-! ## One entry each -/

/-- **The entries of the flat tables are never shared.** For every netlist, there is one offset more
than there are nets, the first one is zero, and none is less than the one before. Offsets and sink
numbers add up to every position below the number of connections, each exactly once, whether or not
there are nets without sinks in between. So, as long as positions are words, a criticality that is
set reads as that value and no other one changes, setting one for a sink that the net does not have
is a fault, and connections that are timed and then committed leave the committed delay and cost of
all other ones alone. -/
theorem flat_tables_never_alias (δ α : Type) [CostScalar α] [DelayScalar δ α] (nl : Netlist) :
    (connectionOffsets nl).size = nl.nets.size + 1 ∧
    (connectionOffsets nl)[0]? = some 0 ∧
    (connectionOffsets nl).toList.Pairwise (· ≤ ·) ∧
    Set.BijOn (fun c : Nat × Nat => (connectionOffsets nl)[c.1]?.getD 0 + c.2) nl.sinkPlaces
      (Set.Iio (connectionCount (connectionOffsets nl))) ∧
    (nl.Numbered →
      (∀ c : Criticality δ, c.IsFor nl → ∀ n sink value,
        (nl.HasConnection n sink → ∃ c', c.set n sink value = .ok c' ∧
          c'.get n sink = .ok value ∧ ∀ n' sink', nl.HasConnection n' sink' →
            (n', sink') ≠ (n, sink) → c'.get n' sink' = c.get n' sink') ∧
        (nl.fanout n ≤ sink → ∃ fault, c.set n sink value = .error fault)) ∧
      ∀ t : ConnectionTable δ α, t.IsFor nl → t.touched = #[] → ∀ inputs connections t',
        (∀ c ∈ connections, nl.HasConnection c.1 c.2) →
        t.proposeAll nl inputs connections = .ok t' →
        ∀ n sink, nl.HasConnection n sink → t'.commit.timingOf n sink =
          if (n, sink) ∈ connections ∧ t.changes nl inputs (n, sink) = true then
            inputs.timed nl (n, sink)
          else t.timingOf n sink) := by
  refine ⟨size_connectionOffsets nl, getElem?_connectionOffsets nl (Nat.zero_le _),
    pairwise_connectionOffsets nl, bijOn_positions nl, fun hnl => ⟨?_, ?_⟩⟩
  · intro c hc n sink value
    exact ⟨fun hhas => hc.exists_set hnl hhas value,
      fun hsink => hc.exists_set_eq_error hnl hsink value⟩
  · intro t ht hidle inputs connections t' hall h n sink hhas
    exact ConnectionTable.timingOf_commit ht hnl hidle hall h hhas

namespace Sample

/-- Two nets between two blocks, the first one with two sinks, and a net without pins in between. -/
def ragged : Netlist where
  blocks := #[⟨⟨0⟩, "a", ⟨1, 1, 0, 0⟩, [⟨0⟩, ⟨4⟩]⟩, ⟨⟨1⟩, "b", ⟨2, 2, 0, 0⟩, [⟨1⟩, ⟨2⟩, ⟨3⟩]⟩]
  nets := #[⟨⟨0⟩, "n", some ⟨0⟩, [⟨1⟩, ⟨2⟩], false⟩, ⟨⟨1⟩, "m", none, [], false⟩,
    ⟨⟨2⟩, "o", some ⟨3⟩, [⟨4⟩], false⟩]
  pins := #[⟨⟨0⟩, ⟨0⟩, some ⟨0⟩, .driver, .zero, none⟩,
    ⟨⟨1⟩, ⟨1⟩, some ⟨0⟩, .sink, .zero, some 0⟩, ⟨⟨2⟩, ⟨1⟩, some ⟨0⟩, .sink, .zero, some 1⟩,
    ⟨⟨3⟩, ⟨1⟩, some ⟨2⟩, .driver, .zero, none⟩, ⟨⟨4⟩, ⟨0⟩, some ⟨2⟩, .sink, .zero, some 0⟩]
  blockNames := ∅
  netNames := ∅

/-- Criticalities of one half. -/
def halves : Criticality Rat := .uniform ragged (1 / 2)

/-- Delays that grow with the distance, weighed by one half. -/
def raggedTiming : TimingInputs Rat := ⟨manhattan ⟨1, 2, 3⟩, halves.get⟩

/-- No connection has been timed yet. -/
def untimed : ConnectionTable Rat Rat := .blank ragged

/-- The last connection of the first net has been timed. -/
def proposed : ConnectionTable Rat Rat :=
  result (untimed.proposeAll ragged raggedTiming [(⟨0⟩, 1)]) (by decide +kernel)

end Sample

/-- The last sink of the first net and the first one of the last net stand side by side. Setting or
timing the former leaves the latter alone, and there is no sink in between. -/
theorem flat_tables_never_alias_small :
    (∃ c', Sample.halves.set ⟨0⟩ 1 1 = .ok c' ∧ c'.get ⟨0⟩ 1 = .ok 1 ∧
      c'.get ⟨2⟩ 0 = .ok (1 / 2)) ∧
    (∃ fault, Sample.halves.set ⟨0⟩ 2 1 = .error fault) ∧
    Sample.proposed.commit.timingOf ⟨0⟩ 1 = Sample.raggedTiming.timed Sample.ragged (⟨0⟩, 1) ∧
    Sample.proposed.commit.timingOf ⟨2⟩ 0 = Sample.untimed.timingOf ⟨2⟩ 0 := by
  have hlast : Sample.ragged.HasConnection ⟨0⟩ 1 := Netlist.hasConnection_iff.2 (by decide)
  have hnext : Sample.ragged.HasConnection ⟨2⟩ 0 := Netlist.hasConnection_iff.2 (by decide)
  have hnumbered : Sample.ragged.Numbered :=
    show connectionCount (connectionOffsets Sample.ragged) < Word.size64 by decide
  obtain ⟨-, -, -, -, htables⟩ := flat_tables_never_alias Rat Rat Sample.ragged
  obtain ⟨hset, htimed⟩ := htables hnumbered
  obtain ⟨hchange, -⟩ := hset Sample.halves (Criticality.isFor_uniform _ _) ⟨0⟩ 1 1
  obtain ⟨c', hc', hread, hkept⟩ := hchange hlast
  have hcommit := htimed Sample.untimed (ConnectionTable.isFor_blank _) rfl Sample.raggedTiming
    [(⟨0⟩, 1)] Sample.proposed (by simpa using hlast) (Sample.eq_ok_result (by decide +kernel))
  refine ⟨⟨c', hc', hread, (hkept ⟨2⟩ 0 hnext (by decide)).trans (by decide +kernel)⟩, ?_, ?_, ?_⟩
  · exact (hset Sample.halves (Criticality.isFor_uniform _ _) ⟨0⟩ 2 1).2 (by decide)
  · exact (hcommit ⟨0⟩ 1 hlast).trans (if_pos ⟨by decide, by decide +kernel⟩)
  · exact (hcommit ⟨2⟩ 0 hnext).trans (if_neg fun h => absurd h.1 (by decide))

end WireCost
