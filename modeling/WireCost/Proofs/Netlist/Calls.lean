import Std.Data.HashMap.Lemmas
import WireCost.Proofs.Netlist.Check

/-! # Calls of the builder

What holds of a netlist after any calls that build it, ignore its nets and place its blocks.

* **`Netlist.Call`**, **`Netlist.Call.run`** — the calls, and what each does.
* **`Netlist.Extends`** — tables that only grow: a pin that is there stays as it is.
* **`Netlist.built_of_calls`** — as long as there are ids, calls make built netlists.
* **`Netlist.Consistent.driver_iff`**, **`Netlist.Built.sink_iff`** — the pins of a net are those
  that say so.
* **`Netlist.Built.findBlock?_iff`**, **`Netlist.Built.findNet?_iff`** — of equal names the last
  one is found.
* **`Netlist.calls_keep_tables`** — all of it for any sequence of calls. -/

namespace WireCost.Netlist

variable {nl nl' : Netlist}

/-! ## Calls -/

/-- **A call** that builds a netlist or places it. -/
inductive Call where
  | addBlock (name : String) (location : Location)
  | addNet (name : String)
  | connectDriver (net : NetId) (block : BlockId) (offset : Offset)
  | connectSink (net : NetId) (block : BlockId) (offset : Offset)
  | addOpenPin (block : BlockId)
  | setIgnored (net : NetId) (ignored : Bool)
  | place (block : BlockId) (location : Location)
  | apply (move : Move)
  | revert (move : Move)
deriving DecidableEq, Repr

/-- The netlist after a call. -/
def Call.run (nl : Netlist) : Call → Checked Netlist
  | .addBlock name location => .ok (nl.addBlock name location).1
  | .addNet name => .ok (nl.addNet name).1
  | .connectDriver net block offset => Except.map Prod.fst (nl.connectDriver net block offset)
  | .connectSink net block offset => Except.map Prod.fst (nl.connectSink net block offset)
  | .addOpenPin block => Except.map Prod.fst (nl.addOpenPin block)
  | .setIgnored net ignored => nl.setIgnored net ignored
  | .place block location => nl.place block location
  | .apply move => nl.apply move
  | .revert move => nl.revert move

/-- The netlist after some calls, one after the other. -/
def runCalls (nl : Netlist) (calls : List Call) : Checked Netlist := calls.foldlM Call.run nl

theorem runCalls_cons {c : Call} {calls : List Call} : nl.runCalls (c :: calls) = .ok nl' ↔
    ∃ nl₁, Call.run nl c = .ok nl₁ ∧ nl₁.runCalls calls = .ok nl' := by
  rw [runCalls, List.foldlM_cons, Checked.bind_eq_ok]
  rfl

theorem runCalls_append {before after : List Call} : nl.runCalls (before ++ after) = .ok nl' ↔
    ∃ nl₁, nl.runCalls before = .ok nl₁ ∧ nl₁.runCalls after = .ok nl' := by
  rw [runCalls, List.foldlM_append, Checked.bind_eq_ok]
  rfl

/-! ## Tables grow -/

/-- **Tables only grow,** and a pin that is there stays as it is. -/
structure Extends (nl nl' : Netlist) : Prop where
  blocks : nl.blocks.size ≤ nl'.blocks.size
  nets : nl.nets.size ≤ nl'.nets.size
  pins : ∀ (i : Nat) (pin : Pin), nl.pins[i]? = some pin → nl'.pins[i]? = some pin

namespace Extends

protected theorem refl (nl : Netlist) : Extends nl nl :=
  ⟨Nat.le_refl _, Nat.le_refl _, fun _ _ => id⟩

protected theorem trans {nl'' : Netlist} (h : Extends nl nl') (h' : Extends nl' nl'') :
    Extends nl nl'' :=
  ⟨h.blocks.trans h'.blocks, h.nets.trans h'.nets,
    fun i pin hpin => h'.pins i pin (h.pins i pin hpin)⟩

theorem pins_size (h : Extends nl nl') : nl.pins.size ≤ nl'.pins.size := by
  by_contra hlt
  have hpin := Array.getElem?_eq_getElem (Nat.lt_of_not_le hlt)
  have hpin' := h.pins _ _ hpin
  simp at hpin'

/-- A netlist with the same connections has the same tables. -/
theorem of_sameWiring (h : SameWiring nl nl') : Extends nl nl' where
  blocks := by
    have hsize := congrArg Array.size h.blocks
    simp only [Array.size_map] at hsize
    omega
  nets := by
    have hsize := congrArg Array.size h.nets
    simp only [Array.size_map] at hsize
    omega
  pins i pin hpin := by rwa [h.pins]

/-- One more pin at the end. -/
theorem of_withPin (nl : Netlist) (pin : Pin) : Extends nl (nl.withPin pin) where
  blocks := by simp [withPin]
  nets := Nat.le_refl _
  pins i old hold := by
    have hlt := (Array.getElem?_eq_some_iff.1 hold).1
    rw [withPin, Array.getElem?_push_lt hlt, ← Array.getElem?_eq_getElem hlt, hold]

end Extends

section Places

variable {loc : Relocation → Location} {rs : List Relocation}

/-- Placing some blocks keeps the tables. -/
theorem extends_places (h : rs.foldlM (fun nl r => nl.place r.block (loc r)) nl = .ok nl') :
    Extends nl nl' :=
  Checked.foldlM_induct (fun _ s => Extends nl s) (.refl nl)
    (fun _ _ _ _ _ _ hs hplace => hs.trans (.of_sameWiring (sameWiring_place hplace))) h

/-- Placing some blocks of a built netlist. -/
theorem Built.places (hnl : nl.Built)
    (h : rs.foldlM (fun nl r => nl.place r.block (loc r)) nl = .ok nl') : nl'.Built :=
  Checked.foldlM_induct (fun _ s => s.Built) hnl (fun _ _ _ _ _ _ hs hplace => hs.place hplace) h

end Places

/-- **A call only adds.** -/
theorem Call.extends {c : Call} (h : Call.run nl c = .ok nl') : Extends nl nl' := by
  cases c with
  | addBlock name location =>
    cases h
    exact ⟨by simp [Netlist.addBlock], Nat.le_refl _, fun _ _ => id⟩
  | addNet name =>
    cases h
    exact ⟨Nat.le_refl _, by simp [Netlist.addNet], fun _ _ => id⟩
  | connectDriver net block offset =>
    obtain ⟨⟨_, id⟩, hcall, rfl⟩ := Checked.map_eq_ok.1 h
    obtain ⟨old, -, -, -, -, rfl⟩ := connectDriver_eq_ok.1 hcall
    have hpin := Extends.of_withPin nl ⟨id, block, some net, .driver, offset, none⟩
    exact ⟨hpin.blocks, by simp, hpin.pins⟩
  | connectSink net block offset =>
    obtain ⟨⟨_, id⟩, hcall, rfl⟩ := Checked.map_eq_ok.1 h
    obtain ⟨old, -, -, -, rfl⟩ := connectSink_eq_ok.1 hcall
    have hpin := Extends.of_withPin nl
      ⟨id, block, some net, .sink, offset, some (.ofNat old.sinks.length)⟩
    exact ⟨hpin.blocks, by simp, hpin.pins⟩
  | addOpenPin block =>
    obtain ⟨⟨_, id⟩, hcall, rfl⟩ := Checked.map_eq_ok.1 h
    obtain ⟨-, -, rfl⟩ := addPin_eq_ok.1 hcall
    exact .of_withPin nl _
  | setIgnored net ignored => exact .of_sameWiring (sameWiring_setIgnored h)
  | place block location => exact .of_sameWiring (sameWiring_place h)
  | apply move => exact extends_places h
  | revert move => exact extends_places h

/-- **Calls only add.** -/
theorem extends_of_calls {calls : List Call} (h : nl.runCalls calls = .ok nl') : Extends nl nl' :=
  Checked.foldlM_induct (fun _ s => Extends nl s) (.refl nl)
    (fun _ _ _ _ _ _ hs hcall => hs.trans (Call.extends hcall)) h

/-! ## Calls build netlists -/

/-- Every entity of a netlist has an id of its own. -/
structure HasRoom (nl : Netlist) : Prop where
  blocks : nl.blocks.size < Word.size32
  nets : nl.nets.size < Word.size32
  pins : nl.pins.size < Word.size32

/-- What there is room for later there is room for now. -/
theorem HasRoom.of_extends (h : nl'.HasRoom) (hext : Extends nl nl') : nl.HasRoom :=
  ⟨hext.blocks.trans_lt h.blocks, hext.nets.trans_lt h.nets, hext.pins_size.trans_lt h.pins⟩

/-- **A call keeps a netlist built,** if there are ids for what it adds. -/
theorem Call.built {c : Call} (hnl : nl.Built) (h : Call.run nl c = .ok nl') (hroom : nl'.HasRoom) :
    nl'.Built := by
  cases c with
  | addBlock name location =>
    cases h
    exact hnl.addBlock name location (by simpa [Netlist.addBlock] using hroom.blocks)
  | addNet name =>
    cases h
    exact hnl.addNet name (by simpa [Netlist.addNet] using hroom.nets)
  | connectDriver net block offset =>
    obtain ⟨⟨_, id⟩, hcall, rfl⟩ := Checked.map_eq_ok.1 h
    refine hnl.connectDriver ?_ hcall
    obtain ⟨old, -, -, -, -, rfl⟩ := connectDriver_eq_ok.1 hcall
    simpa [withPin] using hroom.pins
  | connectSink net block offset =>
    obtain ⟨⟨_, id⟩, hcall, rfl⟩ := Checked.map_eq_ok.1 h
    refine hnl.connectSink ?_ hcall
    obtain ⟨old, -, -, -, rfl⟩ := connectSink_eq_ok.1 hcall
    simpa [withPin] using hroom.pins
  | addOpenPin block =>
    obtain ⟨⟨_, id⟩, hcall, rfl⟩ := Checked.map_eq_ok.1 h
    refine hnl.addOpenPin ?_ hcall
    obtain ⟨-, -, rfl⟩ := addPin_eq_ok.1 hcall
    simpa [withPin] using hroom.pins
  | setIgnored net ignored => exact hnl.setIgnored h
  | place block location => exact hnl.place h
  | apply move => exact hnl.places h
  | revert move => exact hnl.places h

/-- **Calls make built netlists,** as long as there are ids. -/
theorem built_of_calls {calls : List Call} (h : nl.runCalls calls = .ok nl') (hnl : nl.Built)
    (hroom : nl'.HasRoom) : nl'.Built := by
  induction calls generalizing nl with
  | nil =>
    cases h
    exact hnl
  | cons c calls ih =>
    obtain ⟨nl₁, hcall, hrest⟩ := runCalls_cons.1 h
    -- there is room in between, since the calls that follow only add
    exact ih hrest (Call.built hnl hcall (hroom.of_extends (extends_of_calls hrest)))

/-! ## Pins and nets -/

/-- A pin that drives a net has no position among its sinks. -/
theorem Built.sinkIndex_of_driver (h : nl.Built) : ∀ (i : Nat) (pin : Pin),
    nl.pins[i]? = some pin → pin.direction = .driver → pin.sinkIndex = none := by
  -- what one more pin has to be
  have hpush : ∀ {nl : Netlist} {new : Pin}, (∀ (i : Nat) (pin : Pin), nl.pins[i]? = some pin →
      pin.direction = .driver → pin.sinkIndex = none) →
      (new.direction = .driver → new.sinkIndex = none) → ∀ (i : Nat) (pin : Pin),
        (nl.withPin new).pins[i]? = some pin → pin.direction = .driver → pin.sinkIndex = none := by
    intro nl new hold hnew i pin hpin
    rw [withPin, Array.getElem?_push] at hpin
    split at hpin
    · cases hpin
      exact hnew
    · exact hold i pin hpin
  induction h with
  | empty => simp [Netlist.empty]
  | addBlock name location _ _ ih => exact ih
  | addNet name _ _ ih => exact ih
  | connectDriver _ _ h ih =>
    obtain ⟨_, -, -, -, -, rfl⟩ := connectDriver_eq_ok.1 h
    exact hpush ih fun _ => rfl
  | connectSink _ _ h ih =>
    obtain ⟨_, -, -, -, rfl⟩ := connectSink_eq_ok.1 h
    exact hpush ih (by simp)
  | addOpenPin _ _ h ih =>
    obtain ⟨-, -, rfl⟩ := addPin_eq_ok.1 h
    exact hpush ih (by simp)
  | setIgnored _ h ih => rwa [(sameWiring_setIgnored h).pins]
  | place _ h ih => rwa [(sameWiring_place h).pins]

/-- **A pin is listed once on its own block** and on no other one. -/
theorem Consistent.count_pins (h : nl.Consistent) {p : PinId} {pin : Pin} {b : BlockId}
    {block : Block} (hpin : nl.pins[p.toNat]? = some pin)
    (hblock : nl.blocks[b.toNat]? = some block) :
    block.pins.count p = if pin.block = b then 1 else 0 := by
  have hlists := h.blocks.lists b block hblock p
  simp only [hpin, Option.some.injEq, exists_eq_left'] at hlists
  split
  case isTrue hown =>
    exact List.count_eq_one_of_mem (h.blocks.once _ block hblock) (hlists.2 hown)
  case isFalse hother => exact List.count_eq_zero.2 fun hmem => hother (hlists.1 hmem)

/-- **The driver of a net** is the pin that says that it drives the net. -/
theorem Consistent.driver_iff (h : nl.Consistent) {n : NetId} {net : Net}
    (hnet : nl.nets[n.toNat]? = some net) {p : PinId} : net.driver = some p ↔
      ∃ pin, nl.pins[p.toNat]? = some pin ∧ pin.net = some n ∧ pin.direction = .driver := by
  constructor
  · exact h.nets.driver n net hnet p
  · rintro ⟨pin, hpin, hn, hrole⟩
    obtain ⟨net', hnet', hdriver⟩ := h.nets.netOf p pin n hpin hn
    cases hnet.symm.trans hnet'
    rwa [if_pos hrole] at hdriver

/-- **The sinks of a net** are the pins that say so, each at the position that it has noted. -/
theorem Built.sink_iff (h : nl.Built) {n : NetId} {net : Net}
    (hnet : nl.nets[n.toNat]? = some net) {i : Nat} {p : PinId} : net.sinks[i]? = some p ↔
      ∃ pin, nl.pins[p.toNat]? = some pin ∧ pin.net = some n ∧
        pin.sinkIndex.map (·.toNat) = some i := by
  constructor
  · intro hsink
    obtain ⟨pin, hpin, hn, -, hindex⟩ := h.consistent.nets.sink n net hnet i p hsink
    exact ⟨pin, hpin, hn, hindex⟩
  · rintro ⟨pin, hpin, hn, hindex⟩
    obtain ⟨net', hnet', hrole⟩ := h.consistent.nets.netOf p pin n hpin hn
    cases hnet.symm.trans hnet'
    -- a pin with a position does not drive the net
    have hsink : pin.direction ≠ .driver := by
      intro hdriver
      rw [h.sinkIndex_of_driver _ pin hpin hdriver] at hindex
      cases hindex
    rw [if_neg hsink] at hrole
    obtain ⟨j, hj, hsinks⟩ := hrole
    cases hindex.symm.trans hj
    exact hsinks

/-- **A driver is refused** exactly when the net has one. -/
theorem connectDriver_eq_error_iff {n : NetId} {net : Net} {b : BlockId} {block : Block}
    (hnet : nl.nets[n.toNat]? = some net) (hblock : nl.blocks[b.toNat]? = some block)
    (offset : Offset) {fault : Fault} : nl.connectDriver n b offset = .error fault ↔
      net.driver.isSome ∧ fault = .duplicateDriver net.name := by
  cases hdriver : net.driver with
  | none =>
    have hok : nl.connectDriver n b offset = .ok (_, _) :=
      connectDriver_eq_ok.2 ⟨net, hnet, hdriver, ⟨block, hblock⟩, rfl, rfl⟩
    rw [hok]
    simp
  | some p =>
    have hrefused : nl.connectDriver n b offset = .error (.duplicateDriver net.name) := by
      rw [connectDriver, Netlist.net, entry_of_some hnet, Checked.ok_bind, require,
        if_neg (by simp [hdriver])]
      rfl
    rw [hrefused]
    simp [eq_comm]

/-! ## Names -/

/-- A name stands at a position and at no later one. -/
def LastAt (names : Array String) (name : String) (i : Nat) : Prop :=
  names[i]? = some name ∧ ∀ j, i < j → names[j]? ≠ some name

theorem lastAt_push {names : Array String} {new name : String} {i : Nat} :
    LastAt (names.push new) name i ↔
      if new = name then i = names.size else LastAt names name i := by
  simp only [LastAt, Array.getElem?_push]
  grind

/-- The names of some entities. -/
theorem lastAt_map {β : Type} {entities : Array β} {nameOf : β → String} {name : String} {i : Nat} :
    LastAt (entities.map nameOf) name i ↔ ∃ x, entities[i]? = some x ∧ nameOf x = name ∧
      ∀ j, i < j → ∀ later, entities[j]? = some later → nameOf later ≠ name := by
  simp [LastAt, ← exists_and_right, and_assoc]

/-- An index leads every name to the last position where it stands. -/
def Indexes {ι : Type} (index : Std.HashMap String ι) (toNat : ι → Nat) (names : Array String) :
    Prop :=
  ∀ name i, index[name]? = some i ↔ LastAt names name (toNat i)

/-- **One more name** is put into the index. -/
theorem Indexes.insert {ι : Type} {index : Std.HashMap String ι} {toNat : ι → Nat}
    {names : Array String} (h : Indexes index toNat names) (hinj : ∀ a b, toNat a = toNat b ↔ a = b)
    {new : ι} (hnew : toNat new = names.size) (name : String) :
    Indexes (index.insert name new) toNat (names.push name) := by
  intro name' i
  rw [Std.HashMap.getElem?_insert, lastAt_push, ← hnew, hinj]
  by_cases hname : name = name'
  · simp [hname, eq_comm]
  · simp [hname, h name' i]

/-- The indices of a netlist fit the names of its blocks and nets. -/
structure NamesAgree (nl : Netlist) : Prop where
  blocks : Indexes nl.blockNames BlockId.toNat (nl.blocks.map (·.name))
  nets : Indexes nl.netNames NetId.toNat (nl.nets.map (·.name))

/-- **The name indices of a built netlist** lead to the last entities. -/
theorem Built.namesAgree (h : nl.Built) : nl.NamesAgree := by
  induction h with
  | empty =>
    exact ⟨by simp [Indexes, Netlist.empty, LastAt], by simp [Indexes, Netlist.empty, LastAt]⟩
  | @addBlock nl name location hnl _ ih =>
    refine ⟨?_, ih.nets⟩
    have hid : (BlockId.ofNat nl.blocks.size).toNat = (nl.blocks.map (·.name)).size := by
      rw [BlockId.toNat_ofNat hnl.consistent.blocks.room, Array.size_map]
    simpa [Netlist.addBlock] using ih.blocks.insert (fun _ _ => BlockId.toNat_inj) hid name
  | @addNet nl name hnl _ ih =>
    refine ⟨ih.blocks, ?_⟩
    have hid : (NetId.ofNat nl.nets.size).toNat = (nl.nets.map (·.name)).size := by
      rw [NetId.toNat_ofNat hnl.consistent.nets.room, Array.size_map]
    simpa [Netlist.addNet] using ih.nets.insert (fun _ _ => NetId.toNat_inj) hid name
  | connectDriver _ _ h ih =>
    obtain ⟨_, -, -, -, -, rfl⟩ := connectDriver_eq_ok.1 h
    exact ⟨by simpa [withPin, map_modify_eq] using ih.blocks,
      by simpa [withPin, map_modify_eq] using ih.nets⟩
  | connectSink _ _ h ih =>
    obtain ⟨_, -, -, -, rfl⟩ := connectSink_eq_ok.1 h
    exact ⟨by simpa [withPin, map_modify_eq] using ih.blocks,
      by simpa [withPin, map_modify_eq] using ih.nets⟩
  | addOpenPin _ _ h ih =>
    obtain ⟨-, -, rfl⟩ := addPin_eq_ok.1 h
    exact ⟨by simpa [withPin, map_modify_eq] using ih.blocks, ih.nets⟩
  | setIgnored _ h ih =>
    obtain ⟨-, rfl⟩ := updateNet_eq_ok.1 h
    exact ⟨ih.blocks, by simpa [map_modify_eq] using ih.nets⟩
  | place _ h ih =>
    obtain ⟨-, rfl⟩ := updateBlock_eq_ok.1 h
    exact ⟨by simpa [map_modify_eq] using ih.blocks, ih.nets⟩

/-- **Of the blocks with a name the last one is found.** -/
theorem Built.findBlock?_iff (h : nl.Built) {name : String} {b : BlockId} :
    nl.findBlock? name = some b ↔ ∃ block, nl.blocks[b.toNat]? = some block ∧ block.name = name ∧
      ∀ j, b.toNat < j → ∀ later, nl.blocks[j]? = some later → later.name ≠ name := by
  rw [findBlock?, h.namesAgree.blocks name b, lastAt_map]

/-- **Of the nets with a name the last one is found.** -/
theorem Built.findNet?_iff (h : nl.Built) {name : String} {n : NetId} :
    nl.findNet? name = some n ↔ ∃ net, nl.nets[n.toNat]? = some net ∧ net.name = name ∧
      ∀ j, n.toNat < j → ∀ later, nl.nets[j]? = some later → later.name ≠ name := by
  rw [findNet?, h.namesAgree.nets name n, lastAt_map]

/-! ## All of it -/

/-- An open pin is never connected, whatever is called afterwards. -/
theorem net_of_openPin {before after : List Call} {b : BlockId}
    (h : nl.runCalls (before ++ .addOpenPin b :: after) = .ok nl') :
    ∃ nl₁ pin, nl.runCalls before = .ok nl₁ ∧ nl'.pins[nl₁.pins.size]? = some pin ∧
      pin.block = b ∧ pin.net = none := by
  obtain ⟨nl₁, hbefore, h⟩ := runCalls_append.1 h
  obtain ⟨nl₂, hcall, hafter⟩ := runCalls_cons.1 h
  obtain ⟨⟨_, id⟩, hadd, rfl⟩ := Checked.map_eq_ok.1 hcall
  obtain ⟨-, -, rfl⟩ := addPin_eq_ok.1 hadd
  exact ⟨nl₁, ⟨id, b, none, .sink, .zero, none⟩, hbefore,
    (extends_of_calls hafter).pins _ _ Array.getElem?_push_size, rfl, rfl⟩

/-- The id of a new entity is the position that it gets. -/
structure IdsFollow (nl : Netlist) : Prop where
  block : ∀ name location, (nl.addBlock name location).2.toNat = nl.blocks.size
  net : ∀ name, (nl.addNet name).2.toNat = nl.nets.size
  driver : ∀ net block offset nl' id, nl.connectDriver net block offset = .ok (nl', id) →
    id.toNat = nl.pins.size
  sink : ∀ net block offset nl' id, nl.connectSink net block offset = .ok (nl', id) →
    id.toNat = nl.pins.size
  openPin : ∀ block nl' id, nl.addOpenPin block = .ok (nl', id) → id.toNat = nl.pins.size

theorem HasRoom.idsFollow (h : nl.HasRoom) : nl.IdsFollow where
  block _ _ := BlockId.toNat_ofNat h.blocks
  net _ := NetId.toNat_ofNat h.nets
  driver net block offset nl' id hcall := by
    obtain ⟨-, -, -, -, rfl, -⟩ := connectDriver_eq_ok.1 hcall
    exact PinId.toNat_ofNat h.pins
  sink net block offset nl' id hcall := by
    obtain ⟨-, -, -, rfl, -⟩ := connectSink_eq_ok.1 hcall
    exact PinId.toNat_ofNat h.pins
  openPin block nl' id hcall := by
    obtain ⟨-, rfl, -⟩ := addPin_eq_ok.1 hcall
    exact PinId.toNat_ofNat h.pins

/-- **What any calls leave behind,** as long as there are ids. Ids are positions, and the next ones
will be. Every pin is listed once on its own block and on no other, and a block lists nothing else.
The driver and the sinks of a net are the pins that say so, and a pin that is added open stays open.
Names lead to the last entity that was added with them. The check passes exactly when every net has
a driver, and a driver is refused exactly where there is one. -/
theorem calls_keep_tables {calls : List Call} (h : Netlist.empty.runCalls calls = .ok nl)
    (hroom : nl.HasRoom) :
    ((∀ (i : Nat) (block : Block), nl.blocks[i]? = some block → block.id.toNat = i) ∧
      (∀ (i : Nat) (net : Net), nl.nets[i]? = some net → net.id.toNat = i) ∧
      (∀ (i : Nat) (pin : Pin), nl.pins[i]? = some pin → pin.id.toNat = i) ∧ nl.IdsFollow) ∧
    ((∀ (p : PinId) (pin : Pin), nl.pins[p.toNat]? = some pin →
        (∃ own, nl.blocks[pin.block.toNat]? = some own) ∧
        ∀ (b : BlockId) (block : Block), nl.blocks[b.toNat]? = some block →
          block.pins.count p = if pin.block = b then 1 else 0) ∧
      ∀ (b : BlockId) (block : Block), nl.blocks[b.toNat]? = some block →
        ∀ p ∈ block.pins, ∃ pin, nl.pins[p.toNat]? = some pin) ∧
    (∀ (n : NetId) (net : Net), nl.nets[n.toNat]? = some net → ∀ p : PinId,
      (net.driver = some p ↔
        ∃ pin, nl.pins[p.toNat]? = some pin ∧ pin.net = some n ∧ pin.direction = .driver) ∧
      ∀ i, net.sinks[i]? = some p ↔ ∃ pin, nl.pins[p.toNat]? = some pin ∧ pin.net = some n ∧
        pin.sinkIndex.map (·.toNat) = some i) ∧
    (∀ (p : PinId) (pin : Pin) (n : NetId), nl.pins[p.toNat]? = some pin → pin.net = some n →
      ∃ net, nl.nets[n.toNat]? = some net) ∧
    (∀ before b after, calls = before ++ .addOpenPin b :: after →
      ∃ nl₁ pin, Netlist.empty.runCalls before = .ok nl₁ ∧
        nl.pins[nl₁.pins.size]? = some pin ∧ pin.block = b ∧ pin.net = none) ∧
    (∀ (name : String) (b : BlockId), nl.findBlock? name = some b ↔
      ∃ block, nl.blocks[b.toNat]? = some block ∧ block.name = name ∧
        ∀ j, b.toNat < j → ∀ later, nl.blocks[j]? = some later → later.name ≠ name) ∧
    (∀ (name : String) (n : NetId), nl.findNet? name = some n ↔
      ∃ net, nl.nets[n.toNat]? = some net ∧ net.name = name ∧
        ∀ j, n.toNat < j → ∀ later, nl.nets[j]? = some later → later.name ≠ name) ∧
    (nl.check = .ok () ↔ ∀ net ∈ nl.nets, net.driver.isSome) ∧
    ∀ (n : NetId) (net : Net) (b : BlockId) (block : Block) (offset : Offset),
      nl.nets[n.toNat]? = some net → nl.blocks[b.toNat]? = some block → ∀ fault,
        nl.connectDriver n b offset = .error fault ↔
          net.driver.isSome ∧ fault = .duplicateDriver net.name := by
  have hbuilt : nl.Built := built_of_calls h .empty hroom
  have hagree := hbuilt.consistent
  refine ⟨⟨hagree.blocks.ids, hagree.nets.ids, hagree.pinIds, hroom.idsFollow⟩, ⟨?_, ?_⟩, ?_, ?_,
    ?_, ?_, ?_, hbuilt.check_iff, ?_⟩
  · exact fun p pin hpin =>
      ⟨hagree.blocks.blockOf _ pin hpin, fun b block hblock => hagree.count_pins hpin hblock⟩
  · intro b block hblock p hp
    obtain ⟨pin, hpin, -⟩ := (hagree.blocks.lists b block hblock p).1 hp
    exact ⟨pin, hpin⟩
  · exact fun n net hnet p => ⟨hagree.driver_iff hnet, fun i => hbuilt.sink_iff hnet⟩
  · intro p pin n hpin hn
    obtain ⟨net, hnet, -⟩ := hagree.nets.netOf p pin n hpin hn
    exact ⟨net, hnet⟩
  · rintro before b after rfl
    exact net_of_openPin h
  · exact fun name b => hbuilt.findBlock?_iff
  · exact fun name n => hbuilt.findNet?_iff
  · exact fun n net b block offset hnet hblock fault =>
      connectDriver_eq_error_iff hnet hblock offset

end WireCost.Netlist

/-! ## Some calls -/

namespace WireCost.Sample

/-- Calls that build a net between two blocks of one name, with an open pin in between. -/
def calls : List Netlist.Call :=
  [.addBlock "a" ⟨1, 1, 0, 0⟩, .addNet "n", .connectDriver ⟨0⟩ ⟨0⟩ .zero, .addOpenPin ⟨0⟩,
    .addBlock "a" ⟨2, 2, 0, 0⟩, .connectSink ⟨0⟩ ⟨1⟩ .zero, .place ⟨1⟩ ⟨1, 2, 0, 0⟩,
    .setIgnored ⟨0⟩ true]

/-- The netlist that they build. -/
def called : Netlist := result (Netlist.empty.runCalls calls) (by decide +kernel)

end WireCost.Sample

namespace WireCost.Netlist

open Sample

/-- The calls end in a netlist that passes the check, in which the second block is found. -/
theorem calls_keep_tables_small :
    Netlist.empty.runCalls calls = .ok called ∧ called.HasRoom ∧ called.check = .ok () ∧
      called.findBlock? "a" = some ⟨1⟩ ∧
      ∃ pin, called.pins[1]? = some pin ∧ pin.block = ⟨0⟩ ∧ pin.net = none := by
  have hcalls : Netlist.empty.runCalls calls = .ok called := eq_ok_result (by decide +kernel)
  have hroom : called.HasRoom := ⟨by decide +kernel, by decide +kernel, by decide +kernel⟩
  obtain ⟨-, -, -, -, hopen, hname, -, hcheck, -⟩ := calls_keep_tables hcalls hroom
  refine ⟨hcalls, hroom, hcheck.2 (by decide +kernel), (hname "a" ⟨1⟩).2 ?_, ?_⟩
  · refine ⟨_, Array.getElem?_eq_getElem (by decide +kernel), by decide +kernel, ?_⟩
    intro j hj later hlater
    have hlast : j < called.blocks.size := (Array.getElem?_eq_some_iff.1 hlater).1
    have htwo : called.blocks.size = 2 := by decide +kernel
    have hone : (⟨1⟩ : BlockId).toNat = 1 := rfl
    omega
  · obtain ⟨nl₁, pin, hbefore, hpin, hblock, hnet⟩ := hopen (calls.take 3) ⟨0⟩ (calls.drop 4) rfl
    have hsize : (Netlist.empty.runCalls (calls.take 3)).map (·.pins.size) = .ok 1 := by
      decide +kernel
    rw [hbefore] at hsize
    exact ⟨pin, by rwa [← show nl₁.pins.size = 1 from Except.ok.inj hsize], hblock, hnet⟩

end WireCost.Netlist
