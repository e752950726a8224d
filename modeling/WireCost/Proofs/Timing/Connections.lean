import Mathlib.Algebra.Group.Action.Defs
import Mathlib.Algebra.Order.BigOperators.Group.List
import Mathlib.Algebra.Order.Ring.Nat
import WireCost.Proofs.Netlist.Consistent
import WireCost.Timing.Table

/-! # Connections and their positions

The timings of all connections stand in one flat table, net after net.

* **`Netlist.connectionStart`**, **`Netlist.slotOf`** — where the connections of a net start, and
  where each of them stands.
* **`getElem?_connectionOffsets`** — the table of offsets holds these starts.
* **`Netlist.HasConnection.slotOf_inj`** — no two connections share a position;
  **`Netlist.exists_sink_of_lt`** — and every position is that of one.
* **`Netlist.Numbered`**, **`Netlist.HasConnection.connectionSlot_eq`** — positions of connections
  are words.
* **`Netlist.countedConnections`** — the connections of the nets that are not ignored. -/

namespace WireCost

/-! ## Running totals -/

theorem length_offsetsFrom (start : Nat) (sizes : List Nat) :
    (offsetsFrom start sizes).length = sizes.length + 1 := by
  induction sizes generalizing start with
  | nil => rfl
  | cons n sizes ih => rw [offsetsFrom, List.length_cons, ih, List.length_cons]

/-- Each running total adds up the sizes before it. -/
theorem getElem?_offsetsFrom (start : Nat) (sizes : List Nat) {i : Nat} (hi : i ≤ sizes.length) :
    (offsetsFrom start sizes)[i]? = some (start + (sizes.take i).sum) := by
  induction sizes generalizing start i with
  | nil =>
    obtain rfl : i = 0 := Nat.le_zero.1 hi
    rfl
  | cons n sizes ih =>
    rw [offsetsFrom]
    cases i with
    | zero => rfl
    | succ i =>
      rw [List.getElem?_cons_succ, ih _ (Nat.le_of_succ_le_succ hi), List.take_succ_cons,
        List.sum_cons, Nat.add_assoc]

namespace Netlist

variable {nl : Netlist} {n n' : NetId} {sink sink' : Nat}

/-! ## Positions -/

/-- The numbers of sinks of all nets. -/
def sinkCounts (nl : Netlist) : List Nat := nl.nets.toList.map (·.sinks.length)

/-- **Where the connections of a net start:** behind those of all nets before it. -/
def connectionStart (nl : Netlist) (i : Nat) : Nat := (nl.sinkCounts.take i).sum

/-- **The position of a connection.** -/
def slotOf (nl : Netlist) (n : NetId) (sink : Nat) : Nat := nl.connectionStart n.toNat + sink

/-- A net has a sink of that number. -/
def HasConnection (nl : Netlist) (n : NetId) (sink : Nat) : Prop :=
  ∃ net, nl.nets[n.toNat]? = some net ∧ sink < net.sinks.length

theorem length_sinkCounts (nl : Netlist) : nl.sinkCounts.length = nl.nets.size := by
  rw [sinkCounts, List.length_map, Array.length_toList]

/-- The connections of the next net start behind those of this one. -/
theorem connectionStart_succ {i : Nat} {net : Net} (hnet : nl.nets[i]? = some net) :
    nl.connectionStart (i + 1) = nl.connectionStart i + net.sinks.length := by
  have hcount : nl.sinkCounts[i]? = some net.sinks.length := by
    rw [sinkCounts, List.getElem?_map, Array.getElem?_toList, hnet, Option.map_some]
  rw [connectionStart, connectionStart, List.take_add_one, hcount, Option.toList_some,
    List.sum_append, List.sum_singleton]

theorem connectionStart_mono {i j : Nat} (h : i ≤ j) :
    nl.connectionStart i ≤ nl.connectionStart j :=
  (List.take_sublist_take_left h).sum_le_sum fun _ _ => Nat.zero_le _

/-- A sink of a net stands before those of the next net. -/
theorem connectionStart_add_lt {i : Nat} {net : Net} (hnet : nl.nets[i]? = some net)
    (hsink : sink < net.sinks.length) :
    nl.connectionStart i + sink < nl.connectionStart (i + 1) := by
  rw [connectionStart_succ hnet]
  exact Nat.add_lt_add_left hsink _

/-- **No two sinks share a position.** -/
theorem connectionStart_add_inj {i j : Nat} {net net' : Net} (hnet : nl.nets[i]? = some net)
    (hsink : sink < net.sinks.length) (hnet' : nl.nets[j]? = some net')
    (hsink' : sink' < net'.sinks.length)
    (heq : nl.connectionStart i + sink = nl.connectionStart j + sink') : i = j ∧ sink = sink' := by
  have hlt := connectionStart_add_lt hnet hsink
  have hlt' := connectionStart_add_lt hnet' hsink'
  -- the sinks of a net stand before all those of later nets
  obtain hij | rfl | hji := Nat.lt_trichotomy i j
  · have hnext : nl.connectionStart (i + 1) ≤ nl.connectionStart j := connectionStart_mono hij
    omega
  · exact ⟨rfl, Nat.add_left_cancel heq⟩
  · have hnext : nl.connectionStart (j + 1) ≤ nl.connectionStart i := connectionStart_mono hji
    omega

/-- **Every position is that of a sink,** among the first nets as among all. -/
theorem exists_sink_of_lt {i p : Nat} (hi : i ≤ nl.nets.size) (hp : p < nl.connectionStart i) :
    ∃ j net sink, nl.nets[j]? = some net ∧ sink < net.sinks.length ∧
      nl.connectionStart j + sink = p := by
  induction i with
  | zero => cases hp
  | succ i ih =>
    by_cases hbefore : p < nl.connectionStart i
    · exact ih (Nat.le_of_succ_le hi) hbefore
    · have hnet := Array.getElem?_eq_getElem (show i < nl.nets.size from hi)
      rw [connectionStart_succ hnet] at hp
      exact ⟨i, _, p - nl.connectionStart i, hnet, by omega, by omega⟩

end Netlist

open Netlist

/-- **The table of offsets** holds the starts, and after them the number of all connections. -/
theorem getElem?_connectionOffsets (nl : Netlist) {i : Nat} (hi : i ≤ nl.nets.size) :
    (connectionOffsets nl)[i]? = some (nl.connectionStart i) := by
  rw [← nl.length_sinkCounts] at hi
  have h := getElem?_offsetsFrom 0 nl.sinkCounts hi
  rw [Nat.zero_add] at h
  rw [connectionOffsets, List.getElem?_toArray]
  exact h

/-- There is one entry more than there are nets. -/
theorem size_connectionOffsets (nl : Netlist) :
    (connectionOffsets nl).size = nl.nets.size + 1 := by
  rw [connectionOffsets, List.size_toArray, length_offsetsFrom]
  exact congrArg (· + 1) nl.length_sinkCounts

theorem connectionCount_connectionOffsets (nl : Netlist) :
    connectionCount (connectionOffsets nl) = nl.connectionStart nl.nets.size := by
  rw [connectionCount, Array.back?_eq_getElem?, size_connectionOffsets, Nat.add_sub_cancel,
    getElem?_connectionOffsets nl le_rfl, Option.getD_some]

namespace Netlist

variable {nl : Netlist} {n n' : NetId} {sink sink' : Nat}

namespace HasConnection

/-- A connection stands before those of the next net. -/
theorem slotOf_lt_start (h : nl.HasConnection n sink) :
    nl.slotOf n sink < nl.connectionStart (n.toNat + 1) := by
  obtain ⟨net, hnet, hsink⟩ := h
  exact connectionStart_add_lt hnet hsink

/-- **A connection has a position** in the table of all connections. -/
theorem slotOf_lt (h : nl.HasConnection n sink) :
    nl.slotOf n sink < connectionCount (connectionOffsets nl) := by
  have hlt := h.slotOf_lt_start
  obtain ⟨net, hnet, -⟩ := h
  rw [connectionCount_connectionOffsets]
  exact hlt.trans_le (connectionStart_mono (Array.getElem?_eq_some_iff.1 hnet).1)

/-- **No two connections share a position.** -/
theorem slotOf_inj (h : nl.HasConnection n sink) (h' : nl.HasConnection n' sink')
    (heq : nl.slotOf n sink = nl.slotOf n' sink') : n = n' ∧ sink = sink' := by
  obtain ⟨net, hnet, hsink⟩ := h
  obtain ⟨net', hnet', hsink'⟩ := h'
  obtain ⟨hid, hnumber⟩ := connectionStart_add_inj hnet hsink hnet' hsink' heq
  exact ⟨NetId.toNat_inj.1 hid, hnumber⟩

end HasConnection

/-- **The connections can be numbered by words.** -/
def Numbered (nl : Netlist) : Prop := connectionCount (connectionOffsets nl) < Word.size64

/-- They can, where neither the nets nor the sinks of a net are more than a word of half the size
can count. -/
theorem numbered_of_lt (hnets : nl.nets.size ≤ Word.size32)
    (hsinks : ∀ net ∈ nl.nets, net.sinks.length < Word.size32) : nl.Numbered := by
  have hcounts : ∀ k ∈ nl.sinkCounts, k ≤ Word.size32 - 1 := by
    intro k hk
    obtain ⟨net, hnet, rfl⟩ := List.mem_map.1 hk
    have hlt := hsinks net (Array.mem_toList_iff.1 hnet)
    omega
  have hsum := List.sum_le_card_nsmul nl.sinkCounts _ hcounts
  rw [nl.length_sinkCounts, smul_eq_mul] at hsum
  rw [Numbered, connectionCount_connectionOffsets, connectionStart, ← nl.length_sinkCounts,
    List.take_length]
  calc nl.sinkCounts.sum ≤ nl.nets.size * (Word.size32 - 1) := hsum
    _ ≤ Word.size32 * (Word.size32 - 1) := Nat.mul_le_mul_right _ hnets
    _ < Word.size64 := by decide

/-- The connections of a netlist whose tables agree can be numbered. -/
theorem Consistent.numbered (h : nl.Consistent) : nl.Numbered := by
  refine numbered_of_lt h.nets.room.le fun net hnet => ?_
  exact (h.length_sinks_le (h.getElem?_id hnet)).trans_lt h.pinRoom

/-- **The position of a connection is a word,** so that it can be looked up. -/
theorem HasConnection.connectionSlot_eq (h : nl.HasConnection n sink) (hnl : nl.Numbered) :
    connectionSlot (connectionOffsets nl) n sink = .ok (nl.slotOf n sink) := by
  have hlt := h.slotOf_lt.trans hnl
  obtain ⟨net, hnet, -⟩ := h
  have hn := (Array.getElem?_eq_some_iff.1 hnet).1
  rw [connectionSlot, entry_of_some (getElem?_connectionOffsets nl hn.le), Checked.ok_bind]
  exact Word.nat64_eq_ok.2 ⟨hlt, rfl⟩

/-! ## Connections that count -/

/-- The number of sinks of a net. -/
def fanout (nl : Netlist) (n : NetId) : Nat := (nl.nets[n.toNat]?.map (·.sinks.length)).getD 0

/-- The connections of a net, each as the net and the number of its sink. -/
def connectionsOf (nl : Netlist) (n : NetId) : List (NetId × Nat) :=
  (List.range (nl.fanout n)).map (n, ·)

/-- The nets that are not ignored. -/
def countedNets (nl : Netlist) : List NetId :=
  ((List.range nl.nets.size).map NetId.ofNat).filter fun n =>
    nl.nets[n.toNat]?.any (!·.ignored)

/-- **The connections that count:** those of all nets that are not ignored. -/
def countedConnections (nl : Netlist) : List (NetId × Nat) :=
  nl.countedNets.flatMap nl.connectionsOf

/-- The positions of connections. -/
def slotsOf (nl : Netlist) (connections : List (NetId × Nat)) : List Nat :=
  connections.map fun c => nl.slotOf c.1 c.2

variable {placed : Netlist} {net : Net} {c : NetId × Nat}

theorem fanout_eq (hnet : nl.nets[n.toNat]? = some net) : nl.fanout n = net.sinks.length := by
  rw [fanout, hnet, Option.map_some, Option.getD_some]

theorem hasConnection_iff : nl.HasConnection n sink ↔ sink < nl.fanout n := by
  rw [fanout, HasConnection]
  cases nl.nets[n.toNat]? with
  | none => simp
  | some net => simp

theorem mem_connectionsOf : c ∈ nl.connectionsOf n ↔ c.1 = n ∧ nl.HasConnection c.1 c.2 := by
  rw [connectionsOf, List.mem_map, hasConnection_iff]
  constructor
  · rintro ⟨sink, hsink, rfl⟩
    exact ⟨rfl, List.mem_range.1 hsink⟩
  · rintro ⟨rfl, hsink⟩
    exact ⟨c.2, List.mem_range.2 hsink, rfl⟩

theorem mem_countedNets (hroom : nl.nets.size ≤ Word.size32) :
    n ∈ nl.countedNets ↔ ∃ net, nl.nets[n.toNat]? = some net ∧ net.ignored = false := by
  rw [countedNets, List.mem_filter]
  constructor
  · rintro ⟨-, hcounted⟩
    cases hnet : nl.nets[n.toNat]? with
    | none => simp [hnet] at hcounted
    | some net => exact ⟨net, rfl, by simpa [hnet] using hcounted⟩
  · rintro ⟨net, hnet, hcounted⟩
    have hlt := (Array.getElem?_eq_some_iff.1 hnet).1
    refine ⟨List.mem_map.2 ⟨n.toNat, List.mem_range.2 hlt, ?_⟩, by simp [hnet, hcounted]⟩
    exact NetId.toNat_inj.1 (NetId.toNat_ofNat (hlt.trans_le hroom))

/-- A connection counts if its net is not ignored. -/
theorem mem_countedConnections (hroom : nl.nets.size ≤ Word.size32) :
    c ∈ nl.countedConnections ↔
      ∃ net, nl.nets[c.1.toNat]? = some net ∧ net.ignored = false ∧ c.2 < net.sinks.length := by
  rw [countedConnections, List.mem_flatMap]
  constructor
  · rintro ⟨n, hn, hc⟩
    obtain ⟨rfl, net', hnet', hsink⟩ := mem_connectionsOf.1 hc
    obtain ⟨net, hnet, hcounted⟩ := (mem_countedNets hroom).1 hn
    obtain rfl := Option.some.inj (hnet.symm.trans hnet')
    exact ⟨net, hnet, hcounted, hsink⟩
  · rintro ⟨net, hnet, hcounted, hsink⟩
    exact ⟨c.1, (mem_countedNets hroom).2 ⟨net, hnet, hcounted⟩,
      mem_connectionsOf.2 ⟨rfl, net, hnet, hsink⟩⟩

/-- A connection that counts is a connection. -/
theorem hasConnection_of_mem_counted (hc : c ∈ nl.countedConnections) :
    nl.HasConnection c.1 c.2 := by
  obtain ⟨n, -, hc⟩ := List.mem_flatMap.1 hc
  exact (mem_connectionsOf.1 hc).2

/-- **No connection counts twice.** -/
theorem nodup_countedConnections (hroom : nl.nets.size ≤ Word.size32) :
    nl.countedConnections.Nodup := by
  rw [countedConnections, List.nodup_flatMap]
  constructor
  · intro n _
    exact List.nodup_range.map fun _ _ h => congrArg Prod.snd h
  · -- a connection names its net
    refine ((NetId.nodup_map_ofNat hroom).filter _).imp fun hne c hc hc' => hne ?_
    rw [← (mem_connectionsOf.1 hc).1, ← (mem_connectionsOf.1 hc').1]

/-- The connections are a matter of the nets only. -/
theorem slotOf_congr (h : placed.nets = nl.nets) : placed.slotOf n sink = nl.slotOf n sink := by
  rw [slotOf, slotOf, connectionStart, connectionStart, sinkCounts, sinkCounts, h]

theorem countedConnections_congr (h : placed.nets = nl.nets) :
    placed.countedConnections = nl.countedConnections := by
  have hof : placed.connectionsOf = nl.connectionsOf := by
    funext n
    rw [connectionsOf, connectionsOf, fanout, fanout, h]
  rw [countedConnections, countedConnections, countedNets, countedNets, hof, h]

end Netlist

theorem connectionOffsets_congr {nl placed : Netlist} (h : placed.nets = nl.nets) :
    connectionOffsets placed = connectionOffsets nl := by
  rw [connectionOffsets, connectionOffsets, h]

/-- **The table of offsets** is a matter of the connections only. -/
theorem Netlist.SameWiring.connectionOffsets_eq {nl nl' : Netlist} (h : SameWiring nl nl') :
    connectionOffsets nl' = connectionOffsets nl := by
  have hcounts : nl'.nets.toList.map (·.sinks.length) = nl.nets.toList.map (·.sinks.length) := by
    have hwiring := congrArg (fun wirings => wirings.toList.map (·.2.2.length)) h.nets
    simpa [wiringOfNet, Function.comp_def] using hwiring
  rw [connectionOffsets, connectionOffsets, hcounts]

end WireCost
