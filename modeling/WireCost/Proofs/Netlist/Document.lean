import WireCost.Netlist.Document
import WireCost.Proofs.Json.Text

/-! # Netlists and devices read back

What is written as JSON is decoded again: every reader of an entity inverts its writer.

* **`Json.list?_map`**, **`Json.nullable?_ofOption`** — lists and absent references.
* **`Record.ofJson?_bind`**, **`Record.required_bind`** — the fields of a record that is written in
  full.
* **`Block.ofJson?_toJson`**, **`Net.ofJson?_toJson`**, **`Pin.ofJson?_toJson`**,
  **`Device.ofJson?_toJson`** — the entities and the device.
* **`Netlist.unindexed`**, **`Netlist.ofJson?_toJson`** — a netlist comes back without its indices.
* **`Netlist.plain_toJson`**, **`Device.plain_toJson`** — what is written is plain. -/

namespace WireCost

/-! ## Numbers, lists and absent values -/

namespace Json

theorem int32?_word (n : Int32) : (word n).int32? = some n := by
  have hword : Word.IsInt32 n.toInt := ⟨n.le_toInt, n.toInt_lt⟩
  rw [word, int32?, int?, Option.bind_eq_bind, Option.bind_some, if_pos hword, Int32.ofInt_toInt]

theorem natBelow?_nat {size n : Nat} (h : n < size) : (nat n).natBelow? size = some n := by
  rw [nat, natBelow?, int?, Option.bind_eq_bind, Option.bind_some, if_pos (by omega),
    Int.toNat_natCast]

theorem uint32?_nat (n : UInt32) : (nat n.toNat).uint32? = some n := by
  rw [uint32?, natBelow?_nat n.toNat_lt, Option.map_some, UInt32.ofNat_toNat]

theorem uint64?_nat (n : UInt64) : (nat n.toNat).uint64? = some n := by
  rw [uint64?, natBelow?_nat n.toNat_lt, Option.map_some, UInt64.ofNat_toNat]

section

variable {α : Type} {write : α → Json} {read : Json → Option α}

/-- **A list is read back** if its items are. -/
theorem list?_map (h : ∀ a, read (write a) = some a) (l : List α) :
    list? read (.array (l.map write)) = some l :=
  mapM_map_of_forall fun a _ => h a

/-- **A value that may be absent is read back,** if a value that is there is not written as
`null`. -/
theorem nullable?_ofOption (h : ∀ a, read (write a) = some a) (hne : ∀ a, write a ≠ .null)
    (o : Option α) : nullable? read (ofOption write o) = some o := by
  cases o with
  | none => rfl
  | some a =>
    rw [ofOption, nullable?, h a, Option.map_some]
    exact hne a

end

end Json

/-! ## Records -/

namespace Record

variable {α β : Type} {r : Record} {name : String} {j : Json} {next : α → Option β} {a : α}

/-- **A record that is written in full** is read with all its fields. -/
theorem ofJson?_bind {names : List String} {fields : List (String × Json)}
    {next : Record → Option β} (hnames : fields.map (·.1) = names) (hnodup : names.Nodup) :
    (ofJson? names (.object fields) >>= next) = next ⟨false, fields⟩ := by
  have hknown : fields.filter (fun field => names.contains field.1) = fields :=
    List.filter_eq_self.2 fun field hfield => by
      rw [← hnames, List.contains_iff_mem]
      exact List.mem_map_of_mem hfield
  simp only [ofJson?, hknown]
  rw [if_pos (hnames ▸ hnodup)]
  rfl

/-! Reading goes on behind a field that is there and can be read. -/

theorem required_bind {read : Json → Option α} (ha : read j = some a)
    (hj : r.fields.lookup name = some j) : (r.required name read >>= next) = next a := by
  rw [required, hj, Option.bind_some, ha]
  rfl

theorem withDefault_bind {read : Json → Option α} {value : α} (ha : read j = some a)
    (hj : r.fields.lookup name = some j) : (r.withDefault name value read >>= next) = next a := by
  rw [withDefault, hj]
  dsimp only
  rw [ha]
  rfl

theorem nullable_bind {read : Json → Option α} {o : Option α} {next : Option α → Option β}
    (ho : j.nullable? read = some o) (hj : r.fields.lookup name = some j) :
    (r.nullable name read >>= next) = next o := by
  rw [nullable, hj]
  dsimp only
  rw [ho]
  rfl

end Record

/-! ## Entities -/

theorem Location.ofJson?_toJson (l : Location) : Location.ofJson? l.toJson = some l := by
  rw [ofJson?, toJson, Record.ofJson?_bind (by rfl) (by simp),
    Record.required_bind (Json.int32?_word l.x) (by simp),
    Record.required_bind (Json.int32?_word l.y) (by simp [List.lookup_cons]),
    Record.required_bind (Json.int32?_word l.subTile) (by simp [List.lookup_cons]),
    Record.required_bind (Json.int32?_word l.layer) (by simp [List.lookup_cons])]

theorem Offset.ofJson?_toJson (o : Offset) : Offset.ofJson? o.toJson = some o := by
  simp [Offset.ofJson?, Offset.toJson, Json.int32?_word]

theorem BlockId.ofJson?_toJson (id : BlockId) : BlockId.ofJson? id.toJson = some id :=
  congrArg (Option.map BlockId.mk) (Json.uint32?_nat id.index)

theorem NetId.ofJson?_toJson (id : NetId) : NetId.ofJson? id.toJson = some id :=
  congrArg (Option.map NetId.mk) (Json.uint32?_nat id.index)

theorem PinId.ofJson?_toJson (id : PinId) : PinId.ofJson? id.toJson = some id :=
  congrArg (Option.map PinId.mk) (Json.uint32?_nat id.index)

theorem PinDirection.ofJson?_name (d : PinDirection) :
    PinDirection.ofJson? (.string d.name) = some d := by
  cases d <;> rfl

/-- **A block is read back.** -/
theorem Block.ofJson?_toJson (b : Block) : Block.ofJson? b.toJson = some b := by
  have hname : (Json.string b.name).string? = some b.name := rfl
  rw [ofJson?, toJson, Record.ofJson?_bind (by rfl) (by simp),
    Record.required_bind (BlockId.ofJson?_toJson b.id) (by simp),
    Record.required_bind hname (by simp [List.lookup_cons]),
    Record.required_bind (Location.ofJson?_toJson b.location) (by simp [List.lookup_cons]),
    Record.required_bind (Json.list?_map PinId.ofJson?_toJson b.pins) (by simp [List.lookup_cons])]

/-- **A net is read back,** with or without a driver. -/
theorem Net.ofJson?_toJson (n : Net) : Net.ofJson? n.toJson = some n := by
  have hname : (Json.string n.name).string? = some n.name := rfl
  have hdriver := Json.nullable?_ofOption PinId.ofJson?_toJson nofun n.driver
  have hignored : (Json.bool n.ignored).bool? = some n.ignored := rfl
  rw [ofJson?, toJson, Record.ofJson?_bind (by rfl) (by simp),
    Record.required_bind (NetId.ofJson?_toJson n.id) (by simp),
    Record.required_bind hname (by simp [List.lookup_cons]),
    Record.nullable_bind hdriver (by simp [List.lookup_cons]),
    Record.required_bind (Json.list?_map PinId.ofJson?_toJson n.sinks) (by simp [List.lookup_cons]),
    Record.withDefault_bind hignored (by simp [List.lookup_cons])]

/-- **A pin is read back,** with or without a net and a position among the sinks. -/
theorem Pin.ofJson?_toJson (p : Pin) : Pin.ofJson? p.toJson = some p := by
  have hnet := Json.nullable?_ofOption NetId.ofJson?_toJson nofun p.net
  have hsinkIndex := Json.nullable?_ofOption Json.uint64?_nat nofun p.sinkIndex
  rw [ofJson?, toJson, Record.ofJson?_bind (by rfl) (by simp),
    Record.required_bind (PinId.ofJson?_toJson p.id) (by simp),
    Record.required_bind (BlockId.ofJson?_toJson p.block) (by simp [List.lookup_cons]),
    Record.nullable_bind hnet (by simp [List.lookup_cons]),
    Record.required_bind (PinDirection.ofJson?_name p.direction) (by simp [List.lookup_cons]),
    Record.withDefault_bind (Offset.ofJson?_toJson p.offset) (by simp [List.lookup_cons]),
    Record.withDefault_bind hsinkIndex (by simp [List.lookup_cons])]

/-! ## Netlists and devices -/

/-- A netlist without its name indices. -/
def Netlist.unindexed (nl : Netlist) : Netlist := { nl with blockNames := ∅, netNames := ∅ }

/-- **A netlist is read back** without its name indices. -/
theorem Netlist.ofJson?_toJson (nl : Netlist) : Netlist.ofJson? nl.toJson = some nl.unindexed := by
  rw [ofJson?, toJson, Record.ofJson?_bind (by rfl) (by simp),
    Record.required_bind (Json.list?_map Block.ofJson?_toJson nl.blocks.toList) (by simp),
    Record.required_bind (Json.list?_map Net.ofJson?_toJson nl.nets.toList)
      (by simp [List.lookup_cons]),
    Record.required_bind (Json.list?_map Pin.ofJson?_toJson nl.pins.toList)
      (by simp [List.lookup_cons]), unindexed]

/-- **A device is read back.** -/
theorem Device.ofJson?_toJson (d : Device) : Device.ofJson? d.toJson = some d := by
  rw [ofJson?, toJson, Record.ofJson?_bind (by rfl) (by simp),
    Record.required_bind (Json.uint64?_nat d.width) (by simp),
    Record.required_bind (Json.uint64?_nat d.height) (by simp [List.lookup_cons]),
    Record.required_bind (Json.uint64?_nat d.layers) (by simp [List.lookup_cons]),
    Record.required_bind (Json.list?_map Json.uint32?_nat d.rowTracks) (by simp [List.lookup_cons]),
    Record.required_bind (Json.list?_map Json.uint32?_nat d.columnTracks)
      (by simp [List.lookup_cons])]

/-! ## Plain values -/

theorem Json.plain_ofOption {α : Type} {write : α → Json} (h : ∀ a, (write a).Plain)
    (o : Option α) : (ofOption write o).Plain := by
  cases o with
  | none => exact .null
  | some a => exact h a

theorem Json.plain_map {α : Type} {write : α → Json} (h : ∀ a, (write a).Plain) (l : List α) :
    (array (l.map write)).Plain := by
  refine .array fun j hj => ?_
  obtain ⟨a, -, rfl⟩ := List.mem_map.1 hj
  exact h a

theorem Json.plain_nat (n : Nat) : (nat n).Plain := .integer n

theorem Json.plain_word (n : Int32) : (word n).Plain := .integer n.toInt

theorem BlockId.plain_toJson (id : BlockId) : id.toJson.Plain := Json.plain_nat _

theorem NetId.plain_toJson (id : NetId) : id.toJson.Plain := Json.plain_nat _

theorem PinId.plain_toJson (id : PinId) : id.toJson.Plain := Json.plain_nat _

theorem Location.plain_toJson (l : Location) : l.toJson.Plain :=
  .object (by simp [Json.plain_word])

theorem Offset.plain_toJson (o : Offset) : o.toJson.Plain :=
  .array (by simp [Json.plain_word])

theorem Block.plain_toJson (b : Block) : b.toJson.Plain :=
  .object (by simp [b.id.plain_toJson, Json.Plain.string, b.location.plain_toJson,
    Json.plain_map PinId.plain_toJson])

theorem Net.plain_toJson (n : Net) : n.toJson.Plain :=
  .object (by simp [n.id.plain_toJson, Json.Plain.string, Json.plain_ofOption PinId.plain_toJson,
    Json.plain_map PinId.plain_toJson, Json.Plain.bool])

theorem Pin.plain_toJson (p : Pin) : p.toJson.Plain :=
  .object (by simp [p.id.plain_toJson, p.block.plain_toJson, Json.Plain.string,
    Json.plain_ofOption NetId.plain_toJson, p.offset.plain_toJson,
    Json.plain_ofOption fun n : UInt64 => Json.plain_nat n.toNat])

theorem Netlist.plain_toJson (nl : Netlist) : nl.toJson.Plain :=
  .object (by simp [Json.plain_map Block.plain_toJson, Json.plain_map Net.plain_toJson,
    Json.plain_map Pin.plain_toJson])

theorem Device.plain_toJson (d : Device) : d.toJson.Plain :=
  .object (by simp [Json.plain_nat, Json.plain_map fun n : UInt32 => Json.plain_nat n.toNat])

end WireCost
