import WireCost.Geometry.Table
import WireCost.Proofs.Geometry.InPlace

/-! # Operations on the table of geometries

Every operation changes one side of one net.

* **`GeometryTable.withProposed`, `GeometryTable.withCommitted`** — the two ways to change a table.
* **`GeometryTable.propose_eq_ok`**, **`load_eq_ok`**, **`shift_eq_ok`**, **`commit_eq_ok`** — when
  an operation succeeds, and which geometry it puts where. -/

namespace WireCost.GeometryTable

variable {t t' : GeometryTable} {nl : Netlist} {interior : Interior} {n : NetId}

/-! ## One side of one net -/

/-- A table with another proposed geometry of one net. -/
def withProposed (t : GeometryTable) (n : NetId) (g : Geometry) : GeometryTable :=
  { t with proposed := t.proposed.setIfInBounds n.toNat g }

/-- A table with another committed geometry of one net. -/
def withCommitted (t : GeometryTable) (n : NetId) (g : Geometry) : GeometryTable :=
  { t with committed := t.committed.setIfInBounds n.toNat g }

/-- One side of a table. -/
def side (t : GeometryTable) (fresh : Bool) : Array Geometry :=
  if fresh then t.committed else t.proposed

@[simp] theorem size_withProposed (t : GeometryTable) (n : NetId) (g : Geometry) :
    (t.withProposed n g).proposed.size = t.proposed.size := by
  simp [withProposed]

/-- The last proposal of a net counts. -/
theorem withProposed_withProposed (t : GeometryTable) (n : NetId) (g g' : Geometry) :
    (t.withProposed n g).withProposed n g' = t.withProposed n g' := by
  simp [withProposed, Array.setIfInBounds_setIfInBounds]

/-! ## Operations -/

theorem propose_eq_ok : t.propose nl interior n = .ok t' ↔
    n.toNat < t.proposed.size ∧ ∃ g, t.scan nl interior n = .ok g ∧ t.withProposed n g = t' := by
  simp only [propose, proposedOf, Checked.bind_eq_ok, entry_eq_ok, Except.ok.injEq]
  constructor
  · rintro ⟨_, hold, g, hg, h⟩
    exact ⟨(Array.getElem?_eq_some_iff.1 hold).1, g, hg, h⟩
  · rintro ⟨hlt, g, hg, h⟩
    exact ⟨_, Array.getElem?_eq_getElem hlt, g, hg, h⟩

theorem load_eq_ok : t.load nl interior n = .ok t' ↔
    n.toNat < t.committed.size ∧ ∃ g, t.scan nl interior n = .ok g ∧ t.withCommitted n g = t' := by
  simp only [load, committedOf, Checked.bind_eq_ok, entry_eq_ok, Except.ok.injEq]
  constructor
  · rintro ⟨_, hold, g, hg, h⟩
    exact ⟨(Array.getElem?_eq_some_iff.1 hold).1, g, hg, h⟩
  · rintro ⟨hlt, g, hg, h⟩
    exact ⟨_, Array.getElem?_eq_getElem hlt, g, hg, h⟩

/-- **A moved pin** changes the proposed geometry of its net, whether that can follow or not. -/
theorem shift_eq_ok {fresh : Bool} {p : PinShift} {followed : Bool} :
    t.shift n fresh p = .ok (t', followed) ↔ ∃ base, (t.side fresh)[n.toNat]? = some base ∧
      ∃ g, Geometry.shift t.form base p = .ok (g, followed) ∧ t.withProposed n g = t' := by
  have hbase : ∀ base, ((if fresh then t.committedOf n else t.proposedOf n) = .ok base ↔
      (t.side fresh)[n.toNat]? = some base) := by
    intro base
    cases fresh with
    | true => exact entry_eq_ok
    | false => exact entry_eq_ok
  rw [shift, ← Checked.ite_bind]
  simp only [Checked.bind_eq_ok, hbase]
  constructor
  · rintro ⟨base, h, ⟨g, followed'⟩, hg, ho⟩
    cases ho
    exact ⟨base, h, g, hg, rfl⟩
  · rintro ⟨base, h, g, hg, rfl⟩
    exact ⟨base, h, (g, followed), hg, rfl⟩

theorem commit_eq_ok : t.commit n = .ok t' ↔
    ∃ g, t.proposed[n.toNat]? = some g ∧ t.withCommitted n g = t' := by
  simp only [commit, proposedOf, Checked.bind_eq_ok, entry_eq_ok, Except.ok.injEq]
  rfl

end WireCost.GeometryTable
