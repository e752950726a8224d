import WireCost.Proofs.Geometry.Store
import WireCost.Proofs.Geometry.Table

/-! # Stores and tables

A store keeps the geometries of all nets side by side, and a table keeps them one by one. Both do
the same.

* **`GeometryStore.Represents`** — a store and a table with the same geometries.
* **`GeometryStore.runTable_eq`** — an operation does to a table what it does to the two geometries
  of its net.
* **`GeometryStore.agree_run`**, **`GeometryStore.agree_calls`** — operations keep a store and a
  table the same.
* **`GeometryStore.agree_runs`** — whole runs have the same answers, or stop with the same fault. -/

namespace WireCost

/-! ## Entries of an array -/

section

variable {value : Type} {xs : Array value} {i j : Nat}

theorem entry_setIfInBounds_self (h : i < xs.size) (x : value) :
    entry (xs.setIfInBounds i x) i = .ok x :=
  entry_of_some (Array.getElem?_setIfInBounds_self_of_lt h)

theorem entry_setIfInBounds_ne (h : i ≠ j) (x : value) :
    entry (xs.setIfInBounds i x) j = entry xs j := by
  rw [entry, entry, Array.getElem?_setIfInBounds_ne h]

/-- Writing what stands there changes nothing. -/
theorem setIfInBounds_of_entry {x : value} (h : entry xs i = .ok x) :
    xs.setIfInBounds i x = xs := by
  have hx := entry_eq_ok.1 h
  refine Array.ext_getElem? fun j => ?_
  rw [Array.getElem?_setIfInBounds]
  split
  · rename_i hij
    subst hij
    rw [if_pos (Array.getElem?_eq_some_iff.1 hx).1, hx]
  · rfl

end

/-! ## One net of a table -/

namespace GeometryTable

variable {t : GeometryTable} {n m : NetId} {g : Geometry}

theorem withCommitted_of_committedOf (h : t.committedOf n = .ok g) : t.withCommitted n g = t := by
  rw [withCommitted, setIfInBounds_of_entry h]

theorem withProposed_of_proposedOf (h : t.proposedOf n = .ok g) : t.withProposed n g = t := by
  rw [withProposed, setIfInBounds_of_entry h]

/-- A table with other geometries of one net. -/
def put (t : GeometryTable) (n : NetId) (x : GeometrySides) : GeometryTable :=
  (t.withCommitted n x.committed).withProposed n x.proposed

end GeometryTable

namespace GeometryStore

variable {form : BoxForm} {nets layers : Nat} {s : GeometryStore} {t : GeometryTable} {n m : NetId}
  {x x' : GeometrySides} {o : Operation}

/-- An operation on a net of a table of geometries. -/
def Operation.runTable (o : Operation) (n : NetId) (t : GeometryTable) :
    Checked (GeometryTable × Bool) :=
  match o with
  | .load nl interior => do .ok (← t.load nl interior n, true)
  | .propose nl interior => do .ok (← t.propose nl interior n, true)
  | .shift fresh p => t.shift n fresh p
  | .commit => do .ok (← t.commit n, true)

/-- **An operation does to a table** what it does to the two geometries of its net. -/
theorem runTable_eq (hc : t.committedOf n = .ok x.committed) (hp : t.proposedOf n = .ok x.proposed)
    (o : Operation) : o.runTable n t =
      o.onSides t.form t.layers n x >>= fun r => .ok (t.put n r.1, r.2) := by
  have hcommitted (g : Geometry) : t.put n ⟨g, x.proposed⟩ = t.withCommitted n g :=
    GeometryTable.withProposed_of_proposedOf hp
  have hproposed (g : Geometry) : t.put n ⟨x.committed, g⟩ = t.withProposed n g := by
    rw [GeometryTable.put, GeometryTable.withCommitted_of_committedOf hc]
  cases o with
  | load nl interior =>
    simp only [Operation.runTable, Operation.onSides, GeometryTable.load, GeometryTable.scan, hc,
      Checked.ok_bind, bind_assoc, hcommitted]
    rfl
  | propose nl interior =>
    simp only [Operation.runTable, Operation.onSides, GeometryTable.propose, GeometryTable.scan, hp,
      Checked.ok_bind, bind_assoc, hproposed]
    rfl
  | shift fresh p =>
    cases fresh with
    | false =>
      simp only [Operation.runTable, Operation.onSides, GeometryTable.shift, hp, Checked.ok_bind,
        bind_assoc, hproposed, Bool.false_eq_true, if_false]
      rfl
    | true =>
      simp only [Operation.runTable, Operation.onSides, GeometryTable.shift, hc, Checked.ok_bind,
        bind_assoc, hproposed, if_true]
      rfl
  | commit =>
    simp only [Operation.runTable, Operation.onSides, GeometryTable.commit, hp, Checked.ok_bind,
      hcommitted]
    rfl

/-! ## All nets -/

/-- **A table holds the geometries of a store.** -/
structure Represents (nets : Nat) (s : GeometryStore) (t : GeometryTable) : Prop where
  isFor : s.IsFor nets
  form : t.form = s.form
  layers : t.layers = s.layers
  committedSize : t.committed.size = nets
  proposedSize : t.proposed.size = nets
  committed : ∀ n : NetId, n.toNat < nets → t.committedOf n = s.committedOf n
  proposed : ∀ n : NetId, n.toNat < nets → t.proposedOf n = s.proposedOf n

namespace Represents

/-- The two geometries of a net are replaced in both. -/
theorem put (h : Represents nets s t) (hn : n.toNat < nets) (hx : x.HasShape s.form s.layers) :
    Represents nets (s.put n x) (t.put n x) where
  isFor := h.isFor.put n x
  form := h.form
  layers := h.layers
  committedSize := Array.size_setIfInBounds.trans h.committedSize
  proposedSize := Array.size_setIfInBounds.trans h.proposedSize
  committed m hm := by
    by_cases hne : n = m
    · subst hne
      rw [(sides_eq_ok.1 (h.isFor.sides_put hn hx)).1]
      exact entry_setIfInBounds_self (h.committedSize ▸ hn) x.committed
    · rw [committedOf_put_of_ne hne hx, ← h.committed m hm]
      exact entry_setIfInBounds_ne (mt NetId.toNat_inj.1 hne) x.committed
  proposed m hm := by
    by_cases hne : n = m
    · subst hne
      rw [(sides_eq_ok.1 (h.isFor.sides_put hn hx)).2]
      exact entry_setIfInBounds_self (h.proposedSize ▸ hn) x.proposed
    · rw [proposedOf_put_of_ne hne hx, ← h.proposed m hm]
      exact entry_setIfInBounds_ne (mt NetId.toNat_inj.1 hne) x.proposed

end Represents

/-- **An operation keeps them the same,** with the same answer or the same fault. -/
theorem agree_run (h : Represents nets s t) (hn : n.toNat < nets) (o : Operation) :
    Checked.Agree (fun r r' => Represents nets r.1 r'.1 ∧ r.2 = r'.2) (o.run n s)
      (o.runTable n t) := by
  obtain ⟨x, hx⟩ := h.isFor.exists_sides hn
  obtain ⟨hc, hp⟩ := sides_eq_ok.1 hx
  rw [run_eq h.isFor hn hx, runTable_eq ((h.committed n hn).trans hc) ((h.proposed n hn).trans hp),
    h.form, h.layers]
  refine .bind_same fun r hr => .ok ⟨h.put hn ?_, rfl⟩
  exact hasShape_of_onSides (hasShape_of_sides hx) hr

/-- **Operations on any nets** keep a store and a table the same. -/
theorem agree_calls (h : Represents nets s t) {calls : List (NetId × Operation)}
    (hcalls : ∀ c ∈ calls, c.1.toNat < nets) :
    Checked.Agree (fun r r' => Represents nets r.1 r'.1 ∧ r.2 = r'.2)
      (runEach (fun c => c.2.run c.1) calls s) (runEach (fun c => c.2.runTable c.1) calls t) := by
  induction calls generalizing s t with
  | nil => exact .ok ⟨h, rfl⟩
  | cons c calls ih =>
    refine (agree_run h (hcalls c List.mem_cons_self) c.2).bind ?_
    rintro ⟨s', answer⟩ ⟨t', _⟩ ⟨h', rfl⟩
    refine (ih h' fun c hc => hcalls c (List.mem_cons_of_mem _ hc)).bind ?_
    rintro ⟨s'', answers⟩ ⟨t'', _⟩ ⟨h'', rfl⟩
    exact .ok ⟨h'', rfl⟩

/-- A new store and a new table are the same. -/
theorem agree_blank (form : BoxForm) (nets layers : Nat) :
    Checked.Agree (Represents nets) (GeometryStore.blank form nets layers)
      (GeometryTable.blank form nets layers) := by
  refine .bind_same fun _ hroom => .ok ?_
  obtain ⟨hboxes, hsinks⟩ := numbered_of_requireRoom hroom
  have hblank := GeometryBuffer.IsFor.blank hboxes hsinks
  have hread (n : NetId) (hn : n.toNat < nets) :
      entry ((Array.range nets).map fun _ => Geometry.blank form layers) n.toNat =
        (GeometryBuffer.blank form nets layers).read form layers n := by
    rw [GeometryBuffer.IsFor.read_blank hboxes hsinks hn]
    exact entry_of_some (by simp [hn])
  exact ⟨⟨hblank, hblank⟩, rfl, rfl, by simp, by simp, hread, hread⟩

/-- **Runs on a store and on a table are the same:** they have the same answers and end with the
same geometries, or they stop with the same fault. -/
theorem agree_runs (form : BoxForm) (nets layers : Nat) {calls : List (NetId × Operation)}
    (hcalls : ∀ c ∈ calls, c.1.toNat < nets) :
    Checked.Agree (fun r r' => Represents nets r.1 r'.1 ∧ r.2 = r'.2)
      (GeometryStore.blank form nets layers >>= runEach (fun c => c.2.run c.1) calls)
      (GeometryTable.blank form nets layers >>= runEach (fun c => c.2.runTable c.1) calls) :=
  (agree_blank form nets layers).bind fun _ _ h => agree_calls h hcalls

end GeometryStore

end WireCost
