import WireCost.Proofs.Engine.Progress
import WireCost.Proofs.Timing.Table

/-! # The connections that a move times

A connection has two ends, and a move may take along either of them or both. Visits of the driver
time all connections of a net, and visits of a sink its own, unless the driver comes along.

* **`Netlist.EndMoves`** — an end of a connection sits on a block of the move.
* **`Engine.retimed`** — the connections that an evaluation times.
* **`Engine.Tracks.mem_retimed`** — these are the connections that count of which an end moves.
* **`Engine.Tracks.nodup_retimed`** — each of them is timed once.
* **`Engine.proposing_of_timeVisits`** — an evaluation times exactly these. -/

namespace WireCost

variable {δ α : Type}

theorem Move.contains_iff {m : Move} {block : BlockId} :
    m.contains block = true ↔ ∃ r ∈ m.relocations, block = r.block := by
  simp only [Move.contains, List.any_eq_true, beq_iff_eq]
  exact exists_congr fun r => and_congr_right fun _ => eq_comm

/-! ## Connections of one visit -/

namespace Netlist

/-- The driver of a net sits on a block of a move. -/
def driverMoves (nl : Netlist) (m : Move) (n : NetId) : Bool :=
  ((nl.nets[n.toNat]?.bind (·.driver)).bind (nl.pins[·.toNat]?)).any fun pin =>
    m.contains pin.block

/-- The connections that a visit of a pin of a net times. -/
def retimedBy (nl : Netlist) (m : Move) (n : NetId) (pin : Pin) : List (NetId × Nat) :=
  match pin.direction with
  | .driver => nl.connectionsOf n
  | .sink => if nl.driverMoves m n then [] else (pin.sinkIndex.map fun i => (n, i.toNat)).toList

/-- **An end of a connection moves:** its driver or its sink sits on a block of the move. -/
def EndMoves (nl : Netlist) (m : Move) (c : NetId × Nat) : Prop :=
  ∃ net p pin, nl.nets[c.1.toNat]? = some net ∧ (net.driver = some p ∨ net.sinks[c.2]? = some p) ∧
    nl.pins[p.toNat]? = some pin ∧ m.contains pin.block = true

variable {nl placed : Netlist} {m : Move} {n : NetId} {p driver : PinId} {pin : Pin} {net : Net}
  {c : NetId × Nat} {r : Relocation}

theorem driverMoves_eq (hnet : nl.nets[n.toNat]? = some net) (hdriver : net.driver = some driver)
    (hpin : nl.pins[driver.toNat]? = some pin) : nl.driverMoves m n = m.contains pin.block := by
  rw [driverMoves, hnet, Option.bind_some, hdriver, Option.bind_some, hpin, Option.any_some]

theorem exists_of_driverMoves (hnet : nl.nets[n.toNat]? = some net)
    (h : nl.driverMoves m n = true) : ∃ driver pin, net.driver = some driver ∧
      nl.pins[driver.toNat]? = some pin ∧ m.contains pin.block = true := by
  rw [driverMoves, hnet, Option.bind_some, Option.any_eq_true] at h
  obtain ⟨pin, hpin, hmoves⟩ := h
  obtain ⟨driver, hdriver, hpin⟩ := Option.bind_eq_some_iff.1 hpin
  exact ⟨driver, pin, hdriver, hpin, hmoves⟩

/-- **What a visit times:** for a driver all connections of its net, and for a sink its own unless
the driver comes along. -/
theorem mem_retimedBy (hnl : nl.Consistent) (hpin : nl.pins[p.toNat]? = some pin)
    (hid : pin.net = some n) : c ∈ nl.retimedBy m n pin ↔
      c.1 = n ∧ ∃ net, nl.nets[n.toNat]? = some net ∧ c.2 < net.sinks.length ∧
        if pin.direction = .driver then net.driver = some p
        else net.sinks[c.2]? = some p ∧ nl.driverMoves m n = false := by
  obtain ⟨net, hnet, hrole⟩ := hnl.nets.netOf p pin n hpin hid
  have hunique : ∀ net', nl.nets[n.toNat]? = some net' → net' = net := fun net' hnet' =>
    Option.some.inj (hnet'.symm.trans hnet)
  rw [retimedBy]
  cases hdirection : pin.direction with
  | driver =>
    rw [if_pos hdirection] at hrole
    simp only [if_true, mem_connectionsOf]
    constructor
    · rintro ⟨rfl, net', hnet', hsink⟩
      obtain rfl := hunique net' hnet'
      exact ⟨rfl, net', hnet', hsink, hrole⟩
    · rintro ⟨rfl, net', hnet', hsink, -⟩
      exact ⟨rfl, net', hnet', hsink⟩
  | sink =>
    -- a sink knows its number
    rw [if_neg (by simp [hdirection])] at hrole
    obtain ⟨i, hindex, hi⟩ := hrole
    obtain ⟨k, hk, rfl⟩ := Option.map_eq_some_iff.1 hindex
    simp only [hk, reduceCtorEq, if_false, Option.map_some, Option.toList_some]
    constructor
    · intro hc
      split at hc
      · cases hc
      · rename_i hstays
        obtain rfl := List.mem_singleton.1 hc
        exact ⟨rfl, net, hnet, (List.getElem?_eq_some_iff.1 hi).1, hi, by simpa using hstays⟩
    · rintro ⟨rfl, net', hnet', -, hp, hstays⟩
      obtain ⟨pin', hpin', -, -, hindex'⟩ := hnl.nets.sink c.1 net' hnet' c.2 p hp
      obtain rfl := Option.some.inj (hpin.symm.trans hpin')
      rw [hindex] at hindex'
      rw [hstays, if_neg Bool.false_ne_true, Option.some.inj hindex']
      exact List.mem_singleton_self c

/-- What a visit times are connections. -/
theorem hasConnection_of_mem_retimedBy (hnl : nl.Consistent) (hpin : nl.pins[p.toNat]? = some pin)
    (hid : pin.net = some n) (hc : c ∈ nl.retimedBy m n pin) : nl.HasConnection c.1 c.2 := by
  obtain ⟨rfl, net, hnet, hsink, -⟩ := (mem_retimedBy hnl hpin hid).1 hc
  exact ⟨net, hnet, hsink⟩

theorem nodup_retimedBy (nl : Netlist) (m : Move) (n : NetId) (pin : Pin) :
    (nl.retimedBy m n pin).Nodup := by
  rw [retimedBy]
  split
  · exact List.nodup_range.map fun _ _ h => congrArg Prod.snd h
  · split
    · exact List.nodup_nil
    · cases pin.sinkIndex with
      | none => exact List.nodup_nil
      | some i => exact List.nodup_singleton _

/-- The block of a visited pin moves. -/
theorem contains_of_visit (hnl : nl.Consistent) (hv : (r, p) ∈ nl.visits m)
    (hpin : nl.pins[p.toNat]? = some pin) : m.contains pin.block = true := by
  obtain ⟨r', hr, hp⟩ := List.mem_flatMap.1 hv
  obtain ⟨p', hp', heq⟩ := List.mem_map.1 hp
  cases heq
  obtain ⟨pin', hpin', hblock⟩ := block_of_mem_pinsOf hnl hp'
  obtain rfl := Option.some.inj (hpin.symm.trans hpin')
  exact Move.contains_iff.2 ⟨r, hr, hblock⟩

/-- A pin whose block moves is visited. -/
theorem exists_visit_of_contains (hnl : nl.Consistent) (hpin : nl.pins[p.toNat]? = some pin)
    (hm : m.contains pin.block = true) : ∃ r, (r, p) ∈ nl.visits m := by
  obtain ⟨r, hr, hblock⟩ := Move.contains_iff.1 hm
  refine ⟨r, List.mem_flatMap.2 ⟨r, hr, List.mem_map_of_mem ?_⟩⟩
  rw [← hblock]
  exact mem_pinsOf_of_block hnl hpin

/-- **A connection neither end of which moves** keeps its ends. -/
theorem endsOf_apply (hm : m.Fits nl) (happly : nl.apply m = .ok placed)
    (hstay : ¬ placed.EndMoves m c) : placed.endsOf c.1 c.2 = nl.endsOf c.1 c.2 := by
  obtain ⟨hpins, hnets⟩ := apply_pins_nets hm happly
  -- each end is looked up in the same tables, and it sits where it sat
  have hsite : ∀ net p, nl.nets[c.1.toNat]? = some net →
      (net.driver = some p ∨ net.sinks[c.2]? = some p) → placed.siteOf p = nl.siteOf p := by
    intro net p hnet hend
    cases hpin : nl.pins[p.toNat]? with
    | none =>
      simp only [siteOf, Netlist.pin, entry, hpins, hpin]
      rfl
    | some pin =>
      refine siteOf_apply_of_ne hm happly hpin fun r hr hblock => hstay ?_
      rw [← hnets] at hnet
      rw [← hpins] at hpin
      exact ⟨net, p, pin, hnet, hend, hpin, Move.contains_iff.2 ⟨r, hr, hblock⟩⟩
  simp only [endsOf, driverOf, Netlist.net, hnets]
  cases hnet : nl.nets[c.1.toNat]? with
  | none => simp only [entry, hnet, Checked.error_bind]
  | some net =>
    simp only [entry_of_some hnet, Checked.ok_bind]
    cases hdriver : net.driver with
    | none => rfl
    | some driver =>
      simp only [Checked.ok_bind, hsite net driver hnet (.inl hdriver)]
      cases hsink : net.sinks[c.2]? with
      | none => simp only [entry, hsink, Checked.error_bind]
      | some p => simp only [entry_of_some hsink, Checked.ok_bind, hsite net p hnet (.inr hsink)]

/-- **A connection of a net that is sited** has its ends. -/
theorem Sited.exists_endsOf {i : Interior} (h : nl.Sited i net driver)
    (hnet : nl.nets[n.toNat]? = some net) (hdriver : net.driver = some driver) {sink : Nat}
    (hsink : sink < net.sinks.length) : ∃ ends, nl.endsOf n sink = .ok ends := by
  have hsite : ∀ p ∈ driver :: net.sinks, ∃ s, nl.siteOf p = .ok s := by
    intro p hp
    obtain ⟨s, hs, -⟩ := Checked.bind_eq_ok.1 (h p hp)
    exact ⟨s, hs⟩
  obtain ⟨a, ha⟩ := hsite driver List.mem_cons_self
  obtain ⟨b, hb⟩ := hsite _ (List.mem_cons_of_mem driver (List.getElem_mem hsink))
  exact ⟨(a, b), endsOf_eq_ok.2 ⟨net, driver, _, hnet, hdriver, List.getElem?_eq_getElem hsink, ha,
    hb⟩⟩

end Netlist

namespace ConnectionTable

variable [CostScalar α] [DelayScalar δ α] {nl : Netlist} {m : Move} {n : NetId} {p : PinId}
  {pin : Pin} {inputs : TimingInputs δ} {t t' : ConnectionTable δ α} {change : α}

/-- **A visit times** the connections that it has to. -/
theorem proposing_of_retime (ht : t.IsFor nl) (hnl : nl.Consistent)
    (hpin : nl.pins[p.toNat]? = some pin) (hid : pin.net = some n)
    (h : t.retime nl inputs m n pin = .ok (t', change)) :
    Proposing t nl inputs (nl.retimedBy m n pin) t' change := by
  have hhas : ∀ c ∈ nl.retimedBy m n pin, nl.HasConnection c.1 c.2 := fun c hc =>
    Netlist.hasConnection_of_mem_retimedBy hnl hpin hid hc
  rw [retime] at h
  rw [Netlist.retimedBy] at hhas ⊢
  cases hdirection : pin.direction with
  | driver =>
    -- one connection of the net after the other
    simp only [hdirection] at h hhas ⊢
    rw [if_pos trivial] at h
    obtain ⟨net, hnet, h⟩ := Checked.bind_eq_ok.1 h
    rw [Netlist.net, entry_eq_ok] at hnet
    rw [Netlist.connectionsOf, Netlist.fanout_eq hnet] at hhas ⊢
    refine Checked.foldlM_induct (c := (t', change))
      (fun done s => Proposing t nl inputs (done.map (n, ·)) s.1 s.2) ?_ ?_ h
    · exact .start t nl inputs
    rintro done sink rest ⟨t₁, delta⟩ s' hall hs hstep
    obtain ⟨⟨t₂, change₂⟩, hpropose, heq⟩ := Checked.bind_eq_ok.1 hstep
    cases heq
    have hc : nl.HasConnection n sink := hhas (n, sink) (by simp [hall])
    rw [List.map_append]
    exact hs.trans (.single (c := (n, sink)) (ht.of_sameCommitted hs.same) hnl.numbered hc hpropose)
  | sink =>
    simp only [hdirection] at h hhas ⊢
    rw [if_neg (by simp)] at h
    obtain ⟨driver, hdriver, h⟩ := Checked.bind_eq_ok.1 h
    obtain ⟨pin', hpin', h⟩ := Checked.bind_eq_ok.1 h
    rw [Netlist.driverOf] at hdriver
    obtain ⟨net, hnet, hdriver⟩ := Checked.bind_eq_ok.1 hdriver
    rw [Netlist.net, entry_eq_ok] at hnet
    rw [Netlist.pin, entry_eq_ok] at hpin'
    have hdriven : net.driver = some driver := by
      cases hd : net.driver with
      | none => simp [hd] at hdriver
      | some d => simpa [hd] using hdriver
    rw [Netlist.driverMoves_eq hnet hdriven hpin'] at hhas ⊢
    split at h
    · -- the visit of the driver covers this connection
      rename_i hmoves
      cases h
      rw [if_pos hmoves]
      exact .start t nl inputs
    · rename_i hstays
      rw [if_neg hstays] at hhas ⊢
      cases hindex : pin.sinkIndex with
      | none =>
        rw [hindex] at h
        cases h
        exact .start t nl inputs
      | some sink =>
        simp only [hindex] at h hhas
        exact .single (c := (n, sink.toNat)) ht hnl.numbered (hhas (n, sink.toNat) (by simp)) h

/-- **A visit can time** the connections that it has to, if each of them can be timed. -/
theorem exists_retime {net : Net} {driver : PinId} (ht : t.IsFor nl) (hnl : nl.Consistent)
    (hpin : nl.pins[p.toNat]? = some pin) (hid : pin.net = some n)
    (hnet : nl.nets[n.toNat]? = some net) (hdriver : net.driver = some driver)
    (htimeable : ∀ c ∈ nl.retimedBy m n pin, t.Timeable nl inputs c) :
    ∃ t' change, t.retime nl inputs m n pin = .ok (t', change) := by
  have hhas : ∀ c ∈ nl.retimedBy m n pin, nl.HasConnection c.1 c.2 := fun c hc =>
    Netlist.hasConnection_of_mem_retimedBy hnl hpin hid hc
  rw [retime]
  rw [Netlist.retimedBy] at hhas htimeable
  cases hdirection : pin.direction with
  | driver =>
    simp only [hdirection] at hhas htimeable
    rw [Netlist.connectionsOf, Netlist.fanout_eq hnet] at hhas htimeable
    rw [if_pos rfl, Netlist.net, entry_of_some hnet, Checked.ok_bind]
    obtain ⟨⟨t', change⟩, h, -⟩ := Checked.foldlM_progress (f := retimeOne nl inputs n)
      (l := List.range net.sinks.length) (b := (t, zero)) (fun _ s => SameCommitted t s.1)
      (.refl t) (by
        rintro done sink rest ⟨t₁, delta⟩ hall hsame
        obtain ⟨t₂, change, hstep⟩ := exists_propose (c := (n, sink)) (ht.of_sameCommitted hsame)
          hnl.numbered (hhas (n, sink) (by simp [hall]))
          ((htimeable (n, sink) (by simp [hall])).of_sameCommitted hsame)
        refine ⟨(t₂, delta + change), ?_, hsame.trans (sameCommitted_propose hstep)⟩
        rw [retimeOne, hstep, Checked.ok_bind])
    exact ⟨t', change, h⟩
  | sink =>
    simp only [hdirection] at hhas htimeable
    obtain ⟨pin', hpin', -⟩ := hnl.nets.driver n net hnet driver hdriver
    rw [Netlist.driverMoves_eq hnet hdriver hpin'] at hhas htimeable
    rw [if_neg (by simp), Netlist.driverOf, Netlist.net, entry_of_some hnet, Checked.ok_bind,
      hdriver, Checked.ok_bind, Netlist.pin, entry_of_some hpin', Checked.ok_bind]
    split
    · exact ⟨t, zero, rfl⟩
    · rename_i hstays
      rw [if_neg hstays] at hhas htimeable
      cases hindex : pin.sinkIndex with
      | none => exact ⟨t, zero, rfl⟩
      | some sink =>
        simp only [hindex] at hhas htimeable
        exact exists_propose (c := (n, sink.toNat)) ht hnl.numbered (hhas (n, sink.toNat) (by simp))
          (htimeable (n, sink.toNat) (by simp))

end ConnectionTable

namespace Engine

variable {e e' : Engine δ α} {nl placed : Netlist} {m : Move} {n : NetId} {p : PinId} {pin : Pin}
  {c : NetId × Nat} {v : Relocation × PinId}

/-! ## Connections of all visits -/

/-- The connections that the visit of one pin times. -/
def retimedAt (e : Engine δ α) (nl : Netlist) (m : Move) (p : PinId) : List (NetId × Nat) :=
  match e.visitedNet nl p, nl.pins[p.toNat]? with
  | some n, some pin => nl.retimedBy m n pin
  | _, _ => []

/-- **The connections that an evaluation times,** in the order of the visits. -/
def retimed (e : Engine δ α) (nl : Netlist) (m : Move) : List (NetId × Nat) :=
  (nl.visits m).flatMap fun v => e.retimedAt nl m v.2

theorem mem_retimedAt : c ∈ e.retimedAt nl m p ↔ ∃ n pin, e.visitedNet nl p = some n ∧
    nl.pins[p.toNat]? = some pin ∧ pin.net = some n ∧ c ∈ nl.retimedBy m n pin := by
  rw [retimedAt]
  constructor
  · intro hc
    split at hc
    · rename_i n pin hnet hpin
      obtain ⟨⟨pin', hpin', hid⟩, -⟩ := visitedNet_eq_some.1 hnet
      obtain rfl := Option.some.inj (hpin.symm.trans hpin')
      exact ⟨n, pin, hnet, hpin, hid, hc⟩
    · cases hc
  · rintro ⟨n, pin, hnet, hpin, -, hc⟩
    rwa [hnet, hpin]

section

variable [CostScalar α]

/-- Every connection that counts has its ends. -/
theorem Tracks.exists_endsOf (h : e.Tracks nl) (hc : c ∈ nl.countedConnections) :
    ∃ ends, nl.endsOf c.1 c.2 = .ok ends := by
  obtain ⟨net, hnet, hcounted, hsink⟩ :=
    (Netlist.mem_countedConnections h.consistent.nets.room.le).1 hc
  obtain ⟨driver, hcounts⟩ := h.counts hnet hcounted
  obtain ⟨g, -, hsited, -⟩ := h.measures hcounts
  exact hsited.exists_endsOf hnet hcounts.driven hsink

/-- **The connections that an evaluation times** are those that count of which an end moves. -/
theorem Tracks.mem_retimed (h : e.Tracks nl) (hm : m.Fits nl) (happly : nl.apply m = .ok placed) :
    c ∈ e.retimed placed m ↔ c ∈ placed.countedConnections ∧ placed.EndMoves m c := by
  have hplaced := Netlist.consistent_apply h.consistent hm happly
  obtain ⟨hpins, hnets⟩ := Netlist.apply_pins_nets hm happly
  rw [retimed, List.mem_flatMap, Netlist.mem_countedConnections hplaced.nets.room.le]
  simp only [mem_retimedAt]
  constructor
  · rintro ⟨⟨r, p⟩, hv, n, pin, hvisited, hpin, hid, hc⟩
    obtain ⟨rfl, net, hnet, hsink, hend⟩ := (Netlist.mem_retimedBy hplaced hpin hid).1 hc
    obtain ⟨-, s, hs, hcounted⟩ := visitedNet_eq_some.1 hvisited
    have hflag : net.ignored = false := (h.ignored c.1 net s (hnets ▸ hnet) hs).symm.trans hcounted
    refine ⟨⟨net, hnet, hflag, hsink⟩, net, p, pin, hnet, ?_, hpin,
      Netlist.contains_of_visit hplaced hv hpin⟩
    split at hend
    · exact .inl hend
    · exact .inr hend.1
  · rintro ⟨⟨net, hnet, hflag, hsink⟩, net', p, pin, hnet', hend, hpin, hmoves⟩
    obtain rfl := Option.some.inj (hnet.symm.trans hnet')
    have hlt : c.1.toNat < e.nets.size := by
      rw [h.size, ← hnets]
      exact (Array.getElem?_eq_some_iff.1 hnet).1
    have hs := Array.getElem?_eq_getElem hlt
    have hcounted := (h.ignored c.1 net _ (hnets ▸ hnet) hs).trans hflag
    -- the visit of any end that moves is found here
    have hvisit : ∀ (q : PinId) (pin : Pin), placed.pins[q.toNat]? = some pin → pin.net = some c.1 →
        m.contains pin.block = true → c ∈ placed.retimedBy m c.1 pin →
        ∃ v ∈ placed.visits m, ∃ n pin, e.visitedNet placed v.2 = some n ∧
          placed.pins[v.2.toNat]? = some pin ∧ pin.net = some n ∧
            c ∈ placed.retimedBy m n pin := by
      intro q pin hpin hid hmoves hc
      obtain ⟨r, hv⟩ := Netlist.exists_visit_of_contains hplaced hpin hmoves
      exact ⟨(r, q), hv, c.1, pin, visitedNet_eq_some.2 ⟨⟨pin, hpin, hid⟩, _, hs, hcounted⟩, hpin,
        hid, hc⟩
    by_cases hdriver : net.driver = some p
    · obtain ⟨pin', hpin', hid, hdirection⟩ := hplaced.nets.driver c.1 net hnet p hdriver
      obtain rfl := Option.some.inj (hpin.symm.trans hpin')
      refine hvisit p pin hpin hid hmoves ((Netlist.mem_retimedBy hplaced hpin hid).2 ?_)
      exact ⟨rfl, net, hnet, hsink, by rw [if_pos hdirection]; exact hdriver⟩
    · have hend := hend.resolve_left hdriver
      obtain ⟨pin', hpin', hid, hdirection, -⟩ := hplaced.nets.sink c.1 net hnet c.2 p hend
      obtain rfl := Option.some.inj (hpin.symm.trans hpin')
      -- if the driver comes along, its visit times the connection, and else that of the sink
      by_cases hcomes : placed.driverMoves m c.1 = true
      · obtain ⟨driver, pin', hdriver, hpin', hmoves'⟩ := Netlist.exists_of_driverMoves hnet hcomes
        obtain ⟨pin'', hpin'', hid', hdirection'⟩ :=
          hplaced.nets.driver c.1 net hnet driver hdriver
        obtain rfl := Option.some.inj (hpin'.symm.trans hpin'')
        refine hvisit driver pin' hpin' hid' hmoves'
          ((Netlist.mem_retimedBy hplaced hpin' hid').2 ?_)
        exact ⟨rfl, net, hnet, hsink, by rw [if_pos hdirection']; exact hdriver⟩
      · refine hvisit p pin hpin hid hmoves ((Netlist.mem_retimedBy hplaced hpin hid).2 ?_)
        refine ⟨rfl, net, hnet, hsink, ?_⟩
        rw [if_neg (by simp [hdirection])]
        exact ⟨hend, by simpa using hcomes⟩

omit [CostScalar α] in
/-- **Each of them is timed once,** from one of its ends. -/
theorem nodup_retimed (hplaced : nl.Consistent) (hm : (m.relocations.map (·.block)).Nodup) :
    (e.retimed nl m).Nodup := by
  have hvisits := Netlist.nodup_visits hplaced hm
  rw [List.Nodup, List.pairwise_map] at hvisits
  rw [retimed, List.nodup_flatMap]
  constructor
  · intro v _
    rw [retimedAt]
    split
    · exact Netlist.nodup_retimedBy ..
    · exact List.nodup_nil
  · -- two visits that time the same connection visit the same pin
    refine hvisits.imp_of_mem fun {v v'} hv hv' hne c hc hc' => hne ?_
    obtain ⟨n, pin, -, hpin, hid, hc⟩ := mem_retimedAt.1 hc
    obtain ⟨n', pin', -, hpin', hid', hc'⟩ := mem_retimedAt.1 hc'
    obtain ⟨rfl, net, hnet, -, hend⟩ := (Netlist.mem_retimedBy hplaced hpin hid).1 hc
    obtain ⟨rfl, net', hnet', -, hend'⟩ := (Netlist.mem_retimedBy hplaced hpin' hid').1 hc'
    obtain rfl := Option.some.inj (hnet.symm.trans hnet')
    have hmoves := Netlist.contains_of_visit hplaced hv hpin
    have hmoves' := Netlist.contains_of_visit hplaced hv' hpin'
    split at hend
    · split at hend'
      · exact Option.some.inj (hend.symm.trans hend')
      · -- a sink is not timed when the driver comes along
        rw [Netlist.driverMoves_eq hnet hend hpin, hmoves] at hend'
        cases hend'.2
    · split at hend'
      · rw [Netlist.driverMoves_eq hnet hend' hpin', hmoves'] at hend
        cases hend.2
      · exact Option.some.inj (hend.1.symm.trans hend'.1)

end

/-! ## The timings after an evaluation -/

section

variable [CostScalar α] [DelayScalar δ α] {inputs : TimingInputs δ} {t : ConnectionTable δ α}
  {delta : α}

/-- **An evaluation times** exactly these connections. -/
theorem proposing_of_timeVisits (ht : e.connections.IsFor nl) (hnl : nl.Consistent)
    (h : e.timeVisits nl m (some inputs) = .ok (t, delta)) :
    e.connections.Proposing nl inputs (e.retimed nl m) t delta := by
  refine Checked.foldlM_induct (c := (t, delta)) (fun done s => e.connections.Proposing nl inputs
    (done.flatMap fun v => e.retimedAt nl m v.2) s.1 s.2) ?_ ?_ h
  · exact .start _ nl inputs
  rintro done ⟨r, p⟩ rest ⟨t₁, delta₁⟩ ⟨t₂, delta₂⟩ - hs hstep
  rw [List.flatMap_append, List.flatMap_singleton]
  rw [timeVisit] at hstep
  cases hvisited : e.visitedNet nl p with
  | none =>
    rw [hvisited] at hstep
    cases hstep
    rw [retimedAt, hvisited, List.append_nil]
    exact hs
  | some n =>
    obtain ⟨⟨pin, hpin, hid⟩, -⟩ := visitedNet_eq_some.1 hvisited
    simp only [hvisited] at hstep
    rw [Netlist.pin, entry_of_some hpin, Checked.ok_bind] at hstep
    obtain ⟨⟨t₃, change⟩, hretime, heq⟩ := Checked.bind_eq_ok.1 hstep
    cases heq
    rw [retimedAt, hvisited, hpin]
    exact hs.trans (ConnectionTable.proposing_of_retime (ht.of_sameCommitted hs.same) hnl hpin hid
      hretime)

/-- **The timings of a move can be told** if each connection that it times can be timed. -/
theorem Tracks.exists_timeVisits (h : e.Tracks nl) (ht : e.connections.IsFor nl) (hm : m.Fits nl)
    (happly : nl.apply m = .ok placed)
    (htimeable : ∀ c ∈ e.retimed placed m, e.connections.Timeable placed inputs c) :
    ∃ timed, e.timeVisits placed m (some inputs) = .ok timed := by
  have hplaced := Netlist.consistent_apply h.consistent hm happly
  obtain ⟨-, hnets⟩ := Netlist.apply_pins_nets hm happly
  obtain ⟨timed, hok, -⟩ := Checked.foldlM_progress (f := e.timeVisit placed m (some inputs))
    (l := placed.visits m) (b := (e.connections, zero))
    (fun _ s => ConnectionTable.SameCommitted e.connections s.1) (.refl _) (by
      rintro done ⟨r, p⟩ rest ⟨t₁, delta₁⟩ hall hsame
      rw [timeVisit]
      cases hvisited : e.visitedNet placed p with
      | none => exact ⟨_, rfl, hsame⟩
      | some n =>
        obtain ⟨⟨pin, hpin, hid⟩, s, hs, hcounted⟩ := visitedNet_eq_some.1 hvisited
        obtain ⟨net, driver, hc⟩ := h.counts_of_state hs hcounted
        have hc' := hc.apply hm happly
        have hmem : ∀ c ∈ placed.retimedBy m n pin, c ∈ e.retimed placed m := fun c hc =>
          List.mem_flatMap.2 ⟨(r, p), by simp [hall], mem_retimedAt.2 ⟨n, pin, hvisited, hpin, hid,
            hc⟩⟩
        obtain ⟨t₂, change, hretime⟩ := ConnectionTable.exists_retime
          ((ht.congr hnets).of_sameCommitted hsame) hplaced hpin hid hc'.entry hc'.driven
          fun c hc => (htimeable c (hmem c hc)).of_sameCommitted hsame
        refine ⟨(t₂, delta₁ + change), ?_,
          hsame.trans (ConnectionTable.sameCommitted_retime hretime)⟩
        dsimp only
        rw [Netlist.pin, entry_of_some hpin, Checked.ok_bind, ConnectionTable.visit, hretime,
          Checked.ok_bind])
  exact ⟨timed, hok⟩

end

end Engine

end WireCost
