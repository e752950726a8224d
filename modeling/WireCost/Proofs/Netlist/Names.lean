import Mathlib.Data.List.Induction
import WireCost.Proofs.Netlist.Calls

/-! # Rebuilding the name indices

* **`Netlist.nameIndex`**, **`Netlist.getElem?_nameIndex`** — the index of a list of names leads to
  the last position of each.
* **`Netlist.findBlock?_indexNames`**, **`Netlist.findNet?_indexNames`** — what is found when the
  indices of a netlist have been rebuilt.
* **`Netlist.SameNames`** — the calls that add neither a block nor a net keep all names.
* **`Netlist.indexNames_of_calls`** — the indices of a netlist that was built by calls are those
  that would be rebuilt. -/

namespace WireCost.Netlist

/-! ## The index of a list of names -/

section

variable {ι : Type}

/-- The index of a list of names. -/
def nameIndex (ofNat : Nat → ι) (names : List String) : Std.HashMap String ι :=
  names.zipIdx.foldl (fun index (name, i) => index.insert name (ofNat i)) ∅

theorem nameIndex_concat (ofNat : Nat → ι) (names : List String) (name : String) :
    nameIndex ofNat (names ++ [name]) =
      (nameIndex ofNat names).insert name (ofNat names.length) := by
  rw [nameIndex, List.zipIdx_append, List.foldl_append, Nat.zero_add]
  rfl

/-- **An index leads every name to the last position where it stands.** -/
theorem getElem?_nameIndex {ofNat : Nat → ι} {names : List String} {name : String} {id : ι} :
    (nameIndex ofNat names)[name]? = some id ↔
      ∃ i, LastAt names.toArray name i ∧ ofNat i = id := by
  induction names using List.reverseRecOn with
  | nil => simp [nameIndex, LastAt]
  | append_singleton names new ih =>
    have hpush : (names ++ [new]).toArray = names.toArray.push new := by simp
    rw [nameIndex_concat, Std.HashMap.getElem?_insert, hpush]
    simp only [lastAt_push]
    by_cases hname : new = name
    · simp [hname]
    · simp [hname, ih]

end

variable {nl nl' : Netlist}

/-! ## The indices of a netlist -/

theorem blockNames_indexNames (nl : Netlist) :
    nl.indexNames.blockNames = nameIndex BlockId.ofNat (nl.blocks.map (·.name)).toList := by
  rw [nameIndex, Array.toList_map, List.zipIdx_map, List.foldl_map]
  rfl

theorem netNames_indexNames (nl : Netlist) :
    nl.indexNames.netNames = nameIndex NetId.ofNat (nl.nets.map (·.name)).toList := by
  rw [nameIndex, Array.toList_map, List.zipIdx_map, List.foldl_map]
  rfl

/-- **Of the blocks with a name the last one is found** in rebuilt indices. -/
theorem findBlock?_indexNames {name : String} {b : BlockId} :
    nl.indexNames.findBlock? name = some b ↔ ∃ i block, nl.blocks[i]? = some block ∧
      block.name = name ∧ (∀ j, i < j → ∀ later, nl.blocks[j]? = some later → later.name ≠ name) ∧
        BlockId.ofNat i = b := by
  rw [findBlock?, blockNames_indexNames, getElem?_nameIndex, Array.toArray_toList]
  simp only [lastAt_map]
  grind

/-- **Of the nets with a name the last one is found** in rebuilt indices. -/
theorem findNet?_indexNames {name : String} {n : NetId} :
    nl.indexNames.findNet? name = some n ↔ ∃ i net, nl.nets[i]? = some net ∧
      net.name = name ∧ (∀ j, i < j → ∀ later, nl.nets[j]? = some later → later.name ≠ name) ∧
        NetId.ofNat i = n := by
  rw [findNet?, netNames_indexNames, getElem?_nameIndex, Array.toArray_toList]
  simp only [lastAt_map]
  grind

/-- The indices are those that would be rebuilt. -/
theorem indexNames_eq_self_iff : nl.indexNames = nl ↔
    nl.blockNames = nameIndex BlockId.ofNat (nl.blocks.map (·.name)).toList ∧
      nl.netNames = nameIndex NetId.ofNat (nl.nets.map (·.name)).toList := by
  rw [← blockNames_indexNames, ← netNames_indexNames]
  constructor
  · intro h
    exact ⟨congrArg blockNames h.symm, congrArg netNames h.symm⟩
  · rintro ⟨hblocks, hnets⟩
    cases nl
    exact congrArg₂ (Netlist.mk _ _ _) hblocks.symm hnets.symm

/-! ## Netlists with the same names -/

/-- The names and their indices stay as they are. -/
structure SameNames (nl nl' : Netlist) : Prop where
  blocks : nl'.blocks.map (·.name) = nl.blocks.map (·.name)
  nets : nl'.nets.map (·.name) = nl.nets.map (·.name)
  blockNames : nl'.blockNames = nl.blockNames
  netNames : nl'.netNames = nl.netNames

namespace SameNames

protected theorem refl (nl : Netlist) : SameNames nl nl := ⟨rfl, rfl, rfl, rfl⟩

protected theorem trans {nl'' : Netlist} (h : SameNames nl nl') (h' : SameNames nl' nl'') :
    SameNames nl nl'' :=
  ⟨h'.blocks.trans h.blocks, h'.nets.trans h.nets, h'.blockNames.trans h.blockNames,
    h'.netNames.trans h.netNames⟩

/-- The indices would be rebuilt as they are, if they would have been before. -/
theorem indexNames (h : SameNames nl nl') (hnl : nl.indexNames = nl) : nl'.indexNames = nl' := by
  rw [indexNames_eq_self_iff] at hnl ⊢
  rwa [h.blocks, h.nets, h.blockNames, h.netNames]

/-- One block has other pins or another place. -/
theorem modify_block (nl : Netlist) (i : Nat) {f : Block → Block} (hf : ∀ b, (f b).name = b.name) :
    SameNames nl { nl with blocks := nl.blocks.modify i f } :=
  ⟨map_modify_eq hf, rfl, rfl, rfl⟩

theorem of_withPin (nl : Netlist) (pin : Pin) : SameNames nl (nl.withPin pin) := by
  obtain ⟨hblocks, -, -, -⟩ := modify_block nl pin.block.toNat
    (f := fun b => { b with pins := b.pins ++ [pin.id] }) fun _ => rfl
  exact ⟨hblocks, rfl, rfl, rfl⟩

/-- One net has other pins. -/
theorem modify_net (nl : Netlist) (i : Nat) {f : Net → Net} (hf : ∀ n, (f n).name = n.name) :
    SameNames nl { nl with nets := nl.nets.modify i f } :=
  ⟨rfl, map_modify_eq hf, rfl, rfl⟩

theorem of_place {b : BlockId} {l : Location} (h : nl.place b l = .ok nl') : SameNames nl nl' := by
  obtain ⟨-, rfl⟩ := updateBlock_eq_ok.1 h
  refine .modify_block nl _ ?_
  exact fun _ => rfl

theorem of_places {loc : Relocation → Location} {rs : List Relocation}
    (h : rs.foldlM (fun nl r => nl.place r.block (loc r)) nl = .ok nl') : SameNames nl nl' :=
  Checked.foldlM_induct (fun _ s => SameNames nl s) (.refl nl)
    (fun _ _ _ _ _ _ hs hplace => hs.trans (.of_place hplace)) h

end SameNames

/-! ## Calls -/

/-- A new name stands behind the others, in its table and in its index. -/
theorem indexNames_addBlock (h : nl.indexNames = nl) (name : String) (l : Location) :
    (nl.addBlock name l).1.indexNames = (nl.addBlock name l).1 := by
  rw [indexNames_eq_self_iff] at h ⊢
  refine ⟨?_, h.2⟩
  simp only [addBlock, Array.map_push, Array.toList_push, nameIndex_concat, h.1]
  simp

theorem indexNames_addNet (h : nl.indexNames = nl) (name : String) :
    (nl.addNet name).1.indexNames = (nl.addNet name).1 := by
  rw [indexNames_eq_self_iff] at h ⊢
  refine ⟨h.1, ?_⟩
  simp only [addNet, Array.map_push, Array.toList_push, nameIndex_concat, h.2]
  simp

/-- **A call keeps the indices** such as they would be rebuilt. -/
theorem Call.indexNames {c : Call} (hnl : nl.indexNames = nl) (h : Call.run nl c = .ok nl') :
    nl'.indexNames = nl' := by
  cases c with
  | addBlock name location =>
    cases h
    exact indexNames_addBlock hnl name location
  | addNet name =>
    cases h
    exact indexNames_addNet hnl name
  | connectDriver net block offset =>
    obtain ⟨⟨_, id⟩, hcall, rfl⟩ := Checked.map_eq_ok.1 h
    obtain ⟨old, -, -, -, -, rfl⟩ := connectDriver_eq_ok.1 hcall
    refine ((SameNames.of_withPin nl _).trans (.modify_net _ _ ?_)).indexNames hnl
    exact fun _ => rfl
  | connectSink net block offset =>
    obtain ⟨⟨_, id⟩, hcall, rfl⟩ := Checked.map_eq_ok.1 h
    obtain ⟨old, -, -, -, rfl⟩ := connectSink_eq_ok.1 hcall
    refine ((SameNames.of_withPin nl _).trans (.modify_net _ _ ?_)).indexNames hnl
    exact fun _ => rfl
  | addOpenPin block =>
    obtain ⟨⟨_, id⟩, hcall, rfl⟩ := Checked.map_eq_ok.1 h
    obtain ⟨-, -, rfl⟩ := addPin_eq_ok.1 hcall
    exact (SameNames.of_withPin nl _).indexNames hnl
  | setIgnored net ignored =>
    obtain ⟨-, rfl⟩ := updateNet_eq_ok.1 h
    refine (SameNames.modify_net nl _ ?_).indexNames hnl
    exact fun _ => rfl
  | place block location => exact (SameNames.of_place h).indexNames hnl
  | apply move => exact (SameNames.of_places h).indexNames hnl
  | revert move => exact (SameNames.of_places h).indexNames hnl

/-- **The indices of a netlist that was built by calls** are those that would be rebuilt. -/
theorem indexNames_of_calls {calls : List Call} (h : Netlist.empty.runCalls calls = .ok nl) :
    nl.indexNames = nl :=
  Checked.foldlM_induct (fun _ s => s.indexNames = s) rfl
    (fun _ _ _ _ _ _ hs hcall => Call.indexNames hs hcall) h

end WireCost.Netlist
