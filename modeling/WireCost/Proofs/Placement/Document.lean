import WireCost.Placement.Basic
import WireCost.Proofs.Netlist.Document
import WireCost.Proofs.Netlist.Names

/-! # Placement files read back

* **`Placement.ofJson?_toJson`** — a placement is decoded from what it is written as.
* **`Placement.IsText`**, **`Placement.parse_of_isText`** — the texts of a placement, and what is
  parsed from them.
* **`Placement.reload`**, **`Placement.ofText_of_isText`** — reading a file indexes the names again
  and then checks the placement.
* **`Placement.reload_of_calls`** — a netlist that was built by calls comes back as it was.
* **`Placement.file_round_trips`** — all of it for any placement. -/

namespace WireCost.Placement

/-- **A placement is read back** without the name indices of its netlist. -/
theorem ofJson?_toJson (p : Placement) :
    ofJson? p.toJson = some ⟨p.device, p.netlist.unindexed⟩ := by
  rw [ofJson?, toJson, Record.ofJson?_bind (by rfl) (by simp),
    Record.required_bind (Device.ofJson?_toJson p.device) (by simp),
    Record.required_bind (Netlist.ofJson?_toJson p.netlist) (by simp [List.lookup_cons])]

theorem plain_toJson (p : Placement) : p.toJson.Plain :=
  .object (by simp [p.device.plain_toJson, p.netlist.plain_toJson])

/-! ## Texts -/

/-- A text of a placement, on one line or over several. -/
def IsText (p : Placement) (text : String) : Prop :=
  text = p.toJson.compact ∨ text = p.toJson.pretty

/-- The placement that a file gives back: its netlist has its names indexed again. -/
def reload (p : Placement) : Placement := ⟨p.device, p.netlist.unindexed.indexNames⟩

variable {p : Placement} {text : String}

theorem parse_of_isText (h : p.IsText text) :
    (Json.parse text).bind ofJson? = some ⟨p.device, p.netlist.unindexed⟩ := by
  have hparse : Json.parse text = some p.toJson := by
    obtain rfl | rfl := h
    · exact Json.parse_compact p.plain_toJson
    · exact Json.parse_pretty p.plain_toJson
  rw [hparse, Option.bind_some, ofJson?_toJson]

/-- **A file with a placement** is read as the placement with its names indexed again, if that
passes the checks. -/
theorem ofText_of_isText (h : p.IsText text) (path : String) :
    ofText path text = p.reload.check.map fun _ => p.reload := by
  rw [ofText, parse_of_isText h]
  show (p.reload.check >>= fun _ => .ok p.reload) = _
  cases p.reload.check <;> rfl

/-! ## Names -/

/-- The name indices are not written. -/
theorem toJson_reload (p : Placement) : p.reload.toJson = p.toJson := rfl

/-- **A netlist that was built by calls** comes back as it was, its indices included. -/
theorem reload_of_calls {calls : List Netlist.Call}
    (h : Netlist.empty.runCalls calls = .ok p.netlist) : p.reload = p := by
  have hindices : p.netlist.unindexed.indexNames = p.netlist := Netlist.indexNames_of_calls h
  rw [reload, hindices]

/-- **A placement file round-trips,** whatever its device and its netlist. What it is written as is
decoded to the same device, blocks, nets and pins, with empty name indices. The text of a file, on
one line or over several, is parsed to that, and reading it indexes the names again before the
checks. The rebuilt indices lead every name to the highest position where it stands. A netlist that
was built by calls thereby comes back with exactly the indices that it had. Written again, the
placement has the same texts. -/
theorem file_round_trips (p : Placement) :
    ofJson? p.toJson = some ⟨p.device, p.netlist.unindexed⟩ ∧
    (∀ text, p.IsText text →
      (Json.parse text).bind ofJson? = some ⟨p.device, p.netlist.unindexed⟩ ∧
      ∀ path, ofText path text = p.reload.check.map fun _ => p.reload) ∧
    (∀ name b, p.reload.netlist.findBlock? name = some b ↔
      ∃ i block, p.netlist.blocks[i]? = some block ∧ block.name = name ∧
        (∀ j, i < j → ∀ later, p.netlist.blocks[j]? = some later → later.name ≠ name) ∧
        BlockId.ofNat i = b) ∧
    (∀ name n, p.reload.netlist.findNet? name = some n ↔
      ∃ i net, p.netlist.nets[i]? = some net ∧ net.name = name ∧
        (∀ j, i < j → ∀ later, p.netlist.nets[j]? = some later → later.name ≠ name) ∧
        NetId.ofNat i = n) ∧
    (∀ calls, Netlist.empty.runCalls calls = .ok p.netlist → p.reload = p) ∧
    ∀ text, p.reload.IsText text ↔ p.IsText text := by
  refine ⟨p.ofJson?_toJson, fun text h => ⟨parse_of_isText h, ofText_of_isText h⟩,
    fun name b => ?_, fun name n => ?_, fun calls h => reload_of_calls h, fun text => ?_⟩
  · exact Netlist.findBlock?_indexNames
  · exact Netlist.findNet?_indexNames
  · rw [IsText, IsText, toJson_reload]

end WireCost.Placement
