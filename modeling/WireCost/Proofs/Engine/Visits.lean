import WireCost.Engine.Evaluate
import WireCost.Proofs.Geometry.Table

/-! # What a visit does

An evaluation visits the pins of the relocated blocks one after the other. Each visit is taken apart
here, once and for all.

* **`Netlist.visits`** — the pins that are visited, each with the relocation of its block.
* **`Engine.foldlM_visitBlock`** — visiting block by block is visiting all these pins.
* **`Engine.follow_eq_ok`** — following a pin proposes one geometry, or leaves the engine as it is.
* **`ConnectionTable.retime`** — the part of a visit that times connections.
* **`Engine.visit_eq_ok`** — a visit passes a pin over, or it touches a net, follows the pin and
  times connections. -/

namespace WireCost

/-! ## Visited pins -/

/-- The net of a pin, if it is connected. -/
def Netlist.netOf (nl : Netlist) (p : PinId) : Option NetId := nl.pins[p.toNat]?.bind (·.net)

/-- The pins of a block. -/
def Netlist.pinsOf (nl : Netlist) (block : BlockId) : List PinId :=
  (nl.blocks[block.toNat]?.map (·.pins)).getD []

/-- **The pins that an evaluation visits,** each with the relocation of its block. -/
def Netlist.visits (nl : Netlist) (m : Move) : List (Relocation × PinId) :=
  m.relocations.flatMap fun r => (nl.pinsOf r.block).map (r, ·)

/-- Every block of a move sits at its new location. -/
def Move.IsApplied (m : Move) (nl : Netlist) : Prop :=
  ∀ r ∈ m.relocations, ∃ b, nl.blocks[r.block.toNat]? = some b ∧ b.location = r.target

/-! ## Timing -/

namespace ConnectionTable

variable {δ α : Type} [CostScalar α] [DelayScalar δ α]

/-- Times one connection for the pending move and adds the change of its cost to a total. -/
def retimeOne (nl : Netlist) (inputs : TimingInputs δ) (net : NetId)
    (state : ConnectionTable δ α × α) (sink : Nat) : Checked (ConnectionTable δ α × α) := do
  let (t, change) ← state.1.propose nl inputs net sink
  .ok (t, state.2 + change)

/-- The connections that a moved pin changes: all of its net, one, or none. -/
def retime (t : ConnectionTable δ α) (nl : Netlist) (inputs : TimingInputs δ) (m : Move)
    (net : NetId) (pin : Pin) : Checked (ConnectionTable δ α × α) := do
  if pin.direction = .driver then
    (List.range (← nl.net net).sinks.length).foldlM (retimeOne nl inputs net) (t, zero)
  else
    let driver ← nl.pin (← nl.driverOf net)
    if m.contains driver.block then .ok (t, zero)
    else
      match pin.sinkIndex with
      | none => .ok (t, zero)
      | some sink => t.propose nl inputs net sink.toNat

/-- What a visit adds to the timings and to their total, if connections are timed at all. -/
def visit (nl : Netlist) (timing : Option (TimingInputs δ)) (m : Move) (net : NetId) (pin : Pin)
    (state : ConnectionTable δ α × α) : Checked (ConnectionTable δ α × α) := do
  match timing with
  | none => .ok state
  | some inputs =>
    let (t, change) ← state.1.retime nl inputs m net pin
    .ok (t, state.2 + change)

end ConnectionTable

namespace Engine

variable {δ α : Type} {nl : Netlist} {m : Move} {timing : Option (TimingInputs δ)}
  {e e' : Engine δ α} {n : NetId} {r : Relocation} {p : PinId} {pin : Pin}

/-! ## Following a pin -/

/-- An engine with another proposed geometry of one net, and how it came about. -/
def proposing (e : Engine δ α) (n : NetId) (g : Geometry) (update : NetUpdate) : Engine δ α :=
  { e with geometry := e.geometry.withProposed n g }.updateNet n fun s => { s with update }

/-- The ways in which a moved pin is followed. -/
inductive Followed (e : Engine δ α) (nl : Netlist) (n : NetId) (r : Relocation) (pin : Pin) :
    Engine δ α → Prop where
  /-- The net was scanned before. -/
  | already {s : NetState α} (hs : e.nets[n.toNat]? = some s) (hdone : s.update = .rescanned) :
      Followed e nl n r pin e
  /-- The geometry is changed in place, on the proposed side unless this is the first change. -/
  | adjusted {s : NetState α} {net : Net} {shift : PinShift} {base g : Geometry}
      (hs : e.nets[n.toNat]? = some s) (hopen : s.update ≠ .rescanned)
      (hnet : nl.nets[n.toNat]? = some net) (hbig : ¬ net.sinks.length < e.options.smallNet)
      (hshift : e.shiftOf r pin = .ok shift)
      (hbase : (e.geometry.side (s.update = .untouched))[n.toNat]? = some base)
      (hg : Geometry.shift? e.geometry.form base shift = .ok (some g)) :
      Followed e nl n r pin (e.proposing n g .adjusted)
  /-- A small net is scanned. -/
  | small {s : NetState α} {net : Net} {g : Geometry}
      (hs : e.nets[n.toNat]? = some s) (hopen : s.update ≠ .rescanned)
      (hnet : nl.nets[n.toNat]? = some net) (hsmall : net.sinks.length < e.options.smallNet)
      (hin : n.toNat < e.geometry.proposed.size)
      (hg : e.geometry.scan nl e.interior n = .ok g) :
      Followed e nl n r pin (e.proposing n g .rescanned)
  /-- The change is refused, and the net is scanned. -/
  | refused {s : NetState α} {net : Net} {shift : PinShift} {base g : Geometry}
      (hs : e.nets[n.toNat]? = some s) (hopen : s.update ≠ .rescanned)
      (hnet : nl.nets[n.toNat]? = some net) (hbig : ¬ net.sinks.length < e.options.smallNet)
      (hshift : e.shiftOf r pin = .ok shift)
      (hbase : (e.geometry.side (s.update = .untouched))[n.toNat]? = some base)
      (hrefused : Geometry.shift? e.geometry.form base shift = .ok none)
      (hin : n.toNat < e.geometry.proposed.size)
      (hg : e.geometry.scan nl e.interior n = .ok g) :
      Followed e nl n r pin (e.proposing n g .rescanned)

/-- Scanning a net proposes what the scan yields. -/
theorem rescan_eq_ok : e.rescan nl n = .ok e' ↔ n.toNat < e.geometry.proposed.size ∧
    ∃ g, e.geometry.scan nl e.interior n = .ok g ∧ e.proposing n g .rescanned = e' := by
  simp only [rescan, Checked.bind_eq_ok, GeometryTable.propose_eq_ok, Except.ok.injEq]
  constructor
  · rintro ⟨_, ⟨hin, g, hg, rfl⟩, h⟩
    exact ⟨hin, g, hg, h⟩
  · rintro ⟨hin, g, hg, h⟩
    exact ⟨_, ⟨hin, g, hg, rfl⟩, h⟩

/-- A scan takes the place of whatever was proposed for its net. -/
theorem rescan_shifted {g : Geometry} :
    { e with geometry := e.geometry.withProposed n g }.rescan nl n = .ok e' ↔
      n.toNat < e.geometry.proposed.size ∧
        ∃ g', e.geometry.scan nl e.interior n = .ok g' ∧ e.proposing n g' .rescanned = e' := by
  have hscan : (e.geometry.withProposed n g).scan nl e.interior n =
      e.geometry.scan nl e.interior n := rfl
  have hover : ∀ g', { e with geometry := e.geometry.withProposed n g }.proposing n g' .rescanned =
      e.proposing n g' .rescanned := by
    intro g'
    rw [proposing, GeometryTable.withProposed_withProposed]
    rfl
  simp only [rescan_eq_ok, hscan, hover, GeometryTable.size_withProposed]

/-- **Following a pin succeeds** in one of these ways. -/
theorem follow_eq_ok : e.follow nl n r pin = .ok e' ↔ Followed e nl n r pin e' := by
  rw [follow, Checked.bind_eq_ok]
  simp only [stateOf, entry_eq_ok]
  constructor
  · -- the cases of the run are those of `Followed`, in another order
    rintro ⟨s, hs, h⟩
    split at h
    · rename_i hdone
      cases h
      exact .already hs hdone
    · rename_i hopen
      simp only [Netlist.net, Checked.bind_eq_ok, entry_eq_ok] at h
      obtain ⟨net, hnet, h⟩ := h
      split at h
      · rename_i hsmall
        obtain ⟨hin, g, hg, rfl⟩ := rescan_eq_ok.1 h
        exact .small hs hopen hnet hsmall hin hg
      · rename_i hbig
        simp only [Checked.bind_eq_ok] at h
        obtain ⟨shift, hshift, ⟨t, followed⟩, ht, h⟩ := h
        obtain ⟨base, hbase, g, hg, rfl⟩ := GeometryTable.shift_eq_ok.1 ht
        cases followed with
        | true =>
          cases h
          exact .adjusted hs hopen hnet hbig hshift hbase (Geometry.shift_eq_true.1 hg)
        | false =>
          -- the scan overwrites what the refused change has left behind
          obtain ⟨hin, g', hscan, rfl⟩ := rescan_shifted.1 h
          exact .refused hs hopen hnet hbig hshift hbase (Geometry.exists_shift_eq_false.1 ⟨g, hg⟩)
            hin hscan
  · rintro (⟨hs, hdone⟩ | ⟨hs, hopen, hnet, hbig, hshift, hbase, hg⟩ |
      ⟨hs, hopen, hnet, hsmall, hin, hg⟩ |
      ⟨hs, hopen, hnet, hbig, hshift, hbase, hrefused, hin, hg⟩)
    · exact ⟨_, hs, by rw [if_pos hdone]⟩
    · refine ⟨_, hs, ?_⟩
      rw [if_neg hopen, Netlist.net, entry_of_some hnet, Checked.ok_bind, if_neg hbig, hshift,
        Checked.ok_bind,
        GeometryTable.shift_eq_ok.2 ⟨_, hbase, _, Geometry.shift_eq_true.2 hg, rfl⟩]
      rfl
    · refine ⟨_, hs, ?_⟩
      rw [if_neg hopen, Netlist.net, entry_of_some hnet, Checked.ok_bind, if_pos hsmall]
      exact rescan_eq_ok.2 ⟨hin, _, hg, rfl⟩
    · obtain ⟨g, hleft⟩ := Geometry.exists_shift_eq_false.2 hrefused
      refine ⟨_, hs, ?_⟩
      rw [if_neg hopen, Netlist.net, entry_of_some hnet, Checked.ok_bind, if_neg hbig, hshift,
        Checked.ok_bind, GeometryTable.shift_eq_ok.2 ⟨_, hbase, _, hleft, rfl⟩]
      exact rescan_shifted.2 ⟨hin, _, hg, rfl⟩

/-- Following a pin leaves the timings alone. -/
theorem Followed.connections_eq (h : Followed e nl n r pin e') :
    e'.connections = e.connections := by
  cases h <;> rfl

/-! ## Visiting a pin -/

/-- The net that a visit of a pin touches: its net, unless that is ignored. -/
def visitedNet (e : Engine δ α) (nl : Netlist) (p : PinId) : Option NetId :=
  (nl.netOf p).filter fun n => e.nets[n.toNat]?.any (!·.ignored)

theorem visitedNet_eq_some : e.visitedNet nl p = some n ↔
    (∃ pin, nl.pins[p.toNat]? = some pin ∧ pin.net = some n) ∧
      ∃ s, e.nets[n.toNat]? = some s ∧ s.ignored = false := by
  rw [visitedNet, Option.filter_eq_some_iff, Netlist.netOf, Option.bind_eq_some_iff]
  refine and_congr_right fun _ => ?_
  cases e.nets[n.toNat]? with
  | none => simp
  | some s => simp

/-- A pin is passed over if it is not connected, or to an ignored net only. -/
theorem visitedNet_eq_none (hpin : nl.pins[p.toNat]? = some pin)
    (hpass : ∀ n, pin.net = some n → ∃ s, e.nets[n.toNat]? = some s ∧ s.ignored = true) :
    e.visitedNet nl p = none := by
  rw [Option.eq_none_iff_forall_ne_some]
  intro n hn
  obtain ⟨⟨pin', hpin', hid⟩, s, hs, hcounted⟩ := visitedNet_eq_some.1 hn
  obtain rfl := Option.some.inj (hpin.symm.trans hpin')
  obtain ⟨s', hs', hignored⟩ := hpass n hid
  obtain rfl := Option.some.inj (hs.symm.trans hs')
  rw [hcounted] at hignored
  cases hignored

variable [CostScalar α]

@[simp] theorem geometry_touch (e : Engine δ α) (n : NetId) (s : NetState α) :
    (e.touch n s).geometry = e.geometry := by
  rw [touch]
  split <;> rfl

theorem touch_connections (e : Engine δ α) (n : NetId) (s : NetState α) :
    (e.touch n s).connections = e.connections := by
  rw [touch]
  split <;> rfl

variable [DelayScalar δ α]

/-- Timing connections changes the table of connections only. -/
theorem retime_eq (e : Engine δ α) (nl : Netlist) (inputs : TimingInputs δ) (m : Move)
    (net : NetId) (pin : Pin) : e.retime nl inputs m net pin =
      (e.connections.retime nl inputs m net pin).map fun (t, change) =>
        ({ e with connections := t }, change) := by
  -- the loop over the sinks of the net, with the engine wrapped around its table
  have hloop : ∀ (sinks : List Nat) (t : ConnectionTable δ α) (delta : α),
      sinks.foldlM (Engine.retimeOne nl inputs net) ({ e with connections := t }, delta) =
        (sinks.foldlM (ConnectionTable.retimeOne nl inputs net) (t, delta)).map
          fun (t, change) => ({ e with connections := t }, change) := by
    intro sinks
    induction sinks with
    | nil => exact fun t delta => rfl
    | cons sink sinks ih =>
      intro t delta
      rw [List.foldlM_cons, List.foldlM_cons, Engine.retimeOne, ConnectionTable.retimeOne]
      cases t.propose nl inputs net sink with
      | error fault => rfl
      | ok timed => exact ih timed.1 (delta + timed.2)
  rw [Engine.retime, ConnectionTable.retime]
  split
  · cases nl.net net with
    | error fault => rfl
    | ok net => exact hloop _ e.connections zero
  · cases nl.driverOf net with
    | error fault => rfl
    | ok driver =>
      rw [Checked.ok_bind, Checked.ok_bind]
      cases nl.pin driver with
      | error fault => rfl
      | ok driver =>
        rw [Checked.ok_bind, Checked.ok_bind]
        split
        · rfl
        · cases pin.sinkIndex with
          | none => rfl
          | some sink =>
            dsimp only
            cases e.connections.propose nl inputs net sink.toNat with
            | error fault => rfl
            | ok timed => rfl

/-- The ways in which a visit ends. -/
inductive Visited (nl : Netlist) (m : Move) (timing : Option (TimingInputs δ)) (r : Relocation)
    (p : PinId) (e : Engine δ α) (delta : α) : Engine δ α → α → Prop where
  /-- The pin is not connected, or its net is ignored. -/
  | passed {pin : Pin} (hpin : nl.pins[p.toNat]? = some pin)
      (hpass : ∀ n, pin.net = some n → ∃ s, e.nets[n.toNat]? = some s ∧ s.ignored = true) :
      Visited nl m timing r p e delta e delta
  /-- The pin is followed, and the connections that it changes are timed. -/
  | counted {n : NetId} {pin : Pin} {s : NetState α} {e₁ : Engine δ α} {t : ConnectionTable δ α}
      {delta' : α} (hpin : nl.pins[p.toNat]? = some pin) (hnet : pin.net = some n)
      (hs : e.nets[n.toNat]? = some s) (hcounted : s.ignored = false)
      (hfollow : Followed (e.touch n s) nl n r pin e₁)
      (htime : ConnectionTable.visit nl timing m n pin (e.connections, delta) = .ok (t, delta')) :
      Visited nl m timing r p e delta { e₁ with connections := t } delta'

/-- **A visit succeeds** in one of these ways. -/
theorem visit_eq_ok {delta delta' : α} : visit nl m timing r (e, delta) p = .ok (e', delta') ↔
    Visited nl m timing r p e delta e' delta' := by
  -- the part of a visit that comes after the pin is followed
  have hstep : ∀ e₁ : Engine δ α, ∀ net pin, (match timing with
      | none => .ok (e₁, delta)
      | some inputs => do
        let timed ← e₁.retime nl inputs m net pin
        .ok (timed.1, delta + timed.2)) =
      (ConnectionTable.visit nl timing m net pin (e₁.connections, delta)).map
        fun (t, delta') => ({ e₁ with connections := t }, delta') := by
    intro e₁ net pin
    cases timing with
    | none => rfl
    | some inputs =>
      simp only [retime_eq, ConnectionTable.visit]
      cases e₁.connections.retime nl inputs m net pin with
      | error fault => rfl
      | ok timed => rfl
  simp only [visit, Netlist.pin, Checked.bind_eq_ok, entry_eq_ok, stateOf]
  constructor
  · rintro ⟨pin, hpin, h⟩
    split at h
    · rename_i hnone
      cases h
      exact .passed hpin (by simp [hnone])
    · rename_i n hnet
      simp only [Checked.bind_eq_ok, entry_eq_ok] at h
      obtain ⟨s, hs, h⟩ := h
      split at h
      · rename_i hignored
        cases h
        refine .passed hpin fun n' hn' => ?_
        obtain rfl : n = n' := by simpa [hnet] using hn'
        exact ⟨s, hs, hignored⟩
      · rename_i hcounted
        simp only [Checked.bind_eq_ok, follow_eq_ok] at h
        obtain ⟨e₁, hfollow, h⟩ := h
        obtain ⟨⟨t, delta'⟩, htime, heq⟩ :=
          Checked.map_eq_ok.1 ((hstep e₁ n pin).symm.trans h)
        cases heq
        -- neither touching the net nor following the pin has changed the timings
        rw [hfollow.connections_eq, touch_connections] at htime
        exact .counted hpin hnet hs (by simpa using hcounted) hfollow htime
  · rintro (⟨hpin, hpass⟩ | ⟨hpin, hnet, hs, hcounted, hfollow, htime⟩)
    · refine ⟨_, hpin, ?_⟩
      split
      · rfl
      · rename_i n hnet
        obtain ⟨s, hs, hignored⟩ := hpass n hnet
        rw [entry_of_some hs, Checked.ok_bind, if_pos hignored]
    · refine ⟨_, hpin, ?_⟩
      simp only [hnet]
      rw [entry_of_some hs, Checked.ok_bind, if_neg (by simp [hcounted]), follow_eq_ok.2 hfollow,
        Checked.ok_bind]
      refine (hstep _ _ _).trans ?_
      rw [hfollow.connections_eq, touch_connections, htime]
      rfl

/-! ## Visiting all pins -/

theorem visitBlock_eq_ok {state state' : Engine δ α × α} :
    visitBlock nl m timing state r = .ok state' ↔
      (∃ b, nl.blocks[r.block.toNat]? = some b ∧ b.location = r.target) ∧
        (nl.pinsOf r.block).foldlM (visit nl m timing r) state = .ok state' := by
  simp only [visitBlock, Netlist.block, Checked.bind_eq_ok, entry_eq_ok, require_eq_ok]
  constructor
  · rintro ⟨b, hb, -, htarget, h⟩
    refine ⟨⟨b, hb, htarget⟩, ?_⟩
    rw [Netlist.pinsOf, hb]
    exact h
  · rintro ⟨⟨b, hb, htarget⟩, h⟩
    rw [Netlist.pinsOf, hb] at h
    exact ⟨b, hb, (), htarget, h⟩

/-- **Visiting block by block** is visiting all pins, once every block sits at its new location. -/
theorem foldlM_visitBlock {state state' : Engine δ α × α} :
    m.relocations.foldlM (visitBlock nl m timing) state = .ok state' ↔ m.IsApplied nl ∧
      (nl.visits m).foldlM (fun s v => visit nl m timing v.1 s v.2) state = .ok state' := by
  rw [Netlist.visits, Move.IsApplied]
  -- the move that the visits look at stays the same while the relocations are taken one by one
  generalize m.relocations = rs
  induction rs generalizing state with
  | nil => simp
  | cons r rs ih =>
    simp only [List.foldlM_cons, List.flatMap_cons, List.foldlM_append, List.foldlM_map,
      Checked.bind_eq_ok, visitBlock_eq_ok, ih, List.forall_mem_cons]
    constructor
    · rintro ⟨s, ⟨hr, hfirst⟩, hrs, hrest⟩
      exact ⟨⟨hr, hrs⟩, s, hfirst, hrest⟩
    · rintro ⟨⟨hr, hrs⟩, s, hfirst, hrest⟩
      exact ⟨s, ⟨hr, hfirst⟩, hrs, hrest⟩

end Engine

end WireCost
