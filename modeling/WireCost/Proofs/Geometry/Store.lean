import WireCost.Proofs.Geometry.Buffer

/-! # Operations on flat storage

All nets share the arrays of a store, and an operation works on the parts of one of them.

* **`GeometryStore.Operation`**, **`GeometryStore.runAll`** — operations on a net, one after the
  other, and **`GeometryStore.Built`** for what they make of a new store.
* **`GeometryStore.Operation.onSides`** — what an operation does to the two geometries of its net.
* **`GeometryStore.run_eq`**, **`GeometryStore.runAll_eq`** — that is all that it does to a store.
* **`GeometryStore.operations_confined`** — what the operations on a net leave alone. -/

namespace WireCost

/-- The committed and the proposed geometry of a net. -/
structure GeometrySides where
  committed : Geometry
  proposed : Geometry

/-- Both geometries fill the parts of a net. -/
structure GeometrySides.HasShape (form : BoxForm) (layers : Nat) (x : GeometrySides) : Prop where
  committed : x.committed.HasShape form layers
  proposed : x.proposed.HasShape form layers

namespace GeometryStore

/-! ## Operations -/

/-- What can be asked of a net. -/
inductive Operation where
  /-- The committed side is scanned. -/
  | load (nl : Netlist) (interior : Interior)
  /-- The proposed side is scanned. -/
  | propose (nl : Netlist) (interior : Interior)
  /-- A pin moves on the proposed side. -/
  | shift (fresh : Bool) (p : PinShift)
  /-- The proposed side becomes the committed one. -/
  | commit

namespace Operation

/-- Whether an operation works on the proposed side. -/
def proposes : Operation → Bool
  | .load .. | .commit => false
  | .propose .. | .shift .. => true

/-- **An operation on a net of a store.** The flag tells whether the geometry could follow. -/
def run (o : Operation) (n : NetId) (s : GeometryStore) : Checked (GeometryStore × Bool) :=
  match o with
  | .load nl interior => do .ok (← s.load nl interior n, true)
  | .propose nl interior => do .ok (← s.propose nl interior n, true)
  | .shift fresh p => s.shift n fresh p
  | .commit => do .ok (← s.commit n, true)

/-- **What an operation does to the two geometries of its net.** -/
def onSides (form : BoxForm) (layers : Nat) (o : Operation) (n : NetId) (x : GeometrySides) :
    Checked (GeometrySides × Bool) :=
  match o with
  | .load nl interior => do
    let g ← Geometry.scan form layers (← nl.sitesOf interior n)
    .ok (⟨g, x.proposed⟩, true)
  | .propose nl interior => do
    let g ← Geometry.scan form layers (← nl.sitesOf interior n)
    .ok (⟨x.committed, g⟩, true)
  | .shift fresh p => do
    let (g, followed) ← Geometry.shift form (if fresh then x.committed else x.proposed) p
    .ok (⟨x.committed, g⟩, followed)
  | .commit => .ok (⟨x.proposed, x.proposed⟩, true)

end Operation

/-- Takes steps one after the other, and keeps their answers. -/
def runEach {ι σ β : Type} (step : ι → σ → Checked (σ × β)) : List ι → σ → Checked (σ × List β)
  | [], s => .ok (s, [])
  | i :: rest, s => do
    let (s, answer) ← step i s
    let (s, answers) ← runEach step rest s
    .ok (s, answer :: answers)

/-- **What every step keeps** is kept by all of them together. -/
theorem runEach_induct {ι σ β : Type} {step : ι → σ → Checked (σ × β)} {l : List ι} {s s' : σ}
    {answers : List β} (I : σ → Prop) (start : I s)
    (hstep : ∀ i ∈ l, ∀ s s' answer, I s → step i s = .ok (s', answer) → I s')
    (h : runEach step l s = .ok (s', answers)) : I s' := by
  induction l generalizing s answers with
  | nil =>
    cases h
    exact start
  | cons i rest ih =>
    simp only [runEach, Checked.bind_eq_ok, Except.ok.injEq, Prod.mk.injEq] at h
    obtain ⟨⟨s₁, answer⟩, hone, ⟨s₂, answers'⟩, hrest, rfl, -⟩ := h
    have hkept := hstep i List.mem_cons_self s s₁ answer start hone
    exact ih hkept (fun j hj => hstep j (List.mem_cons_of_mem i hj)) hrest

/-- **Operations on a net,** one after the other. -/
def runAll (n : NetId) (ops : List Operation) (s : GeometryStore) :
    Checked (GeometryStore × List Bool) :=
  runEach (·.run n) ops s

/-- **What operations on its nets make of a new store.** -/
inductive Built (form : BoxForm) (nets layers : Nat) : GeometryStore → Prop where
  | blank {s : GeometryStore} (h : GeometryStore.blank form nets layers = .ok s) :
      Built form nets layers s
  | step {s s' : GeometryStore} {o : Operation} {n : NetId} {answer : Bool}
      (hs : Built form nets layers s) (hn : n.toNat < nets) (h : o.run n s = .ok (s', answer)) :
      Built form nets layers s'

/-! ## One net -/

variable {form : BoxForm} {nets layers : Nat} {s s' : GeometryStore} {n m : NetId}
  {x x' y : GeometrySides} {g : Geometry} {o : Operation} {ops ops' : List Operation}
  {answer : Bool} {answers : List Bool}

/-- **A store for some nets.** -/
structure IsFor (nets : Nat) (s : GeometryStore) : Prop where
  committed : s.committed.IsFor s.form nets s.layers
  proposed : s.proposed.IsFor s.form nets s.layers

/-- The two geometries of a net. -/
def sides (s : GeometryStore) (n : NetId) : Checked GeometrySides := do
  .ok ⟨← s.committedOf n, ← s.proposedOf n⟩

/-- A store with other geometries of one net. -/
def put (s : GeometryStore) (n : NetId) (x : GeometrySides) : GeometryStore where
  form := s.form
  layers := s.layers
  committed := s.committed.put s.form s.layers n x.committed
  proposed := s.proposed.put s.form s.layers n x.proposed

@[simp] theorem form_put (s : GeometryStore) (n : NetId) (x : GeometrySides) :
    (s.put n x).form = s.form := rfl

@[simp] theorem layers_put (s : GeometryStore) (n : NetId) (x : GeometrySides) :
    (s.put n x).layers = s.layers := rfl

theorem sides_eq_ok :
    s.sides n = .ok x ↔ s.committedOf n = .ok x.committed ∧ s.proposedOf n = .ok x.proposed := by
  simp only [sides, Checked.bind_eq_ok, Except.ok.injEq]
  constructor
  · rintro ⟨c, hc, p, hp, rfl⟩
    exact ⟨hc, hp⟩
  · rintro ⟨hc, hp⟩
    exact ⟨_, hc, _, hp, rfl⟩

theorem hasShape_of_sides (hx : s.sides n = .ok x) : x.HasShape s.form s.layers := by
  obtain ⟨hc, hp⟩ := sides_eq_ok.1 hx
  exact ⟨GeometryBuffer.hasShape_of_read hc, GeometryBuffer.hasShape_of_read hp⟩

theorem put_sides (hx : s.sides n = .ok x) : s.put n x = s := by
  obtain ⟨hc, hp⟩ := sides_eq_ok.1 hx
  rw [put, GeometryBuffer.put_read hc, GeometryBuffer.put_read hp]

theorem put_put (hx : x.HasShape s.form s.layers) (hx' : x'.HasShape s.form s.layers) :
    (s.put n x).put n x' = s.put n x' := by
  rw [put, put, put, GeometryBuffer.put_put hx.committed hx'.committed,
    GeometryBuffer.put_put hx.proposed hx'.proposed]

theorem put_comm (h : n ≠ m) (hx : x.HasShape s.form s.layers) (hy : y.HasShape s.form s.layers) :
    (s.put n x).put m y = (s.put m y).put n x := by
  rw [put, put, put, put, GeometryBuffer.put_comm h hx.committed hy.committed,
    GeometryBuffer.put_comm h hx.proposed hy.proposed]

theorem committedOf_put_of_ne (h : n ≠ m) (hx : x.HasShape s.form s.layers) :
    (s.put n x).committedOf m = s.committedOf m :=
  GeometryBuffer.read_put_of_ne h hx.committed

theorem proposedOf_put_of_ne (h : n ≠ m) (hx : x.HasShape s.form s.layers) :
    (s.put n x).proposedOf m = s.proposedOf m :=
  GeometryBuffer.read_put_of_ne h hx.proposed

theorem sides_put_of_ne (h : n ≠ m) (hx : x.HasShape s.form s.layers) :
    (s.put n x).sides m = s.sides m := by
  rw [sides, sides, committedOf_put_of_ne h hx, proposedOf_put_of_ne h hx]

namespace IsFor

theorem put (h : s.IsFor nets) (n : NetId) (x : GeometrySides) : (s.put n x).IsFor nets :=
  ⟨h.committed.put n x.committed, h.proposed.put n x.proposed⟩

/-- A net has two geometries. -/
theorem exists_sides (h : s.IsFor nets) (hn : n.toNat < nets) : ∃ x, s.sides n = .ok x := by
  obtain ⟨c, hc⟩ := h.committed.exists_read hn
  obtain ⟨p, hp⟩ := h.proposed.exists_read hn
  exact ⟨⟨c, p⟩, sides_eq_ok.2 ⟨hc, hp⟩⟩

theorem sides_put (h : s.IsFor nets) (hn : n.toNat < nets) (hx : x.HasShape s.form s.layers) :
    (s.put n x).sides n = .ok x :=
  sides_eq_ok.2 ⟨h.committed.read_put hn hx.committed, h.proposed.read_put hn hx.proposed⟩

theorem putCommitted_eq (h : s.IsFor nets) (hn : n.toNat < nets) (hx : s.sides n = .ok x)
    (g : Geometry) : s.putCommitted n g = .ok (s.put n ⟨g, x.proposed⟩) := by
  rw [putCommitted, h.committed.write_eq hn, Checked.ok_bind, GeometryStore.put,
    GeometryBuffer.put_read (sides_eq_ok.1 hx).2]

theorem putProposed_eq (h : s.IsFor nets) (hn : n.toNat < nets) (hx : s.sides n = .ok x)
    (g : Geometry) : s.putProposed n g = .ok (s.put n ⟨x.committed, g⟩) := by
  rw [putProposed, h.proposed.write_eq hn, Checked.ok_bind, GeometryStore.put,
    GeometryBuffer.put_read (sides_eq_ok.1 hx).1]

end IsFor

/-! ## What an operation does -/

/-- **An operation does to a store** what it does to the two geometries of its net. -/
theorem run_eq (h : s.IsFor nets) (hn : n.toNat < nets) (hx : s.sides n = .ok x)
    (o : Operation) : o.run n s =
      o.onSides s.form s.layers n x >>= fun r => .ok (s.put n r.1, r.2) := by
  obtain ⟨hc, hp⟩ := sides_eq_ok.1 hx
  cases o with
  | load nl interior =>
    simp only [Operation.run, Operation.onSides, load, scan, hc, Checked.ok_bind, bind_assoc,
      h.putCommitted_eq hn hx]
  | propose nl interior =>
    simp only [Operation.run, Operation.onSides, propose, scan, hp, Checked.ok_bind, bind_assoc,
      h.putProposed_eq hn hx]
  | shift fresh p =>
    cases fresh with
    | false =>
      simp only [Operation.run, Operation.onSides, shift, hp, Checked.ok_bind, bind_assoc,
        h.putProposed_eq hn hx, Bool.false_eq_true, if_false]
    | true =>
      -- the proposed side starts as a copy, and the moved geometry replaces it
      have hshape := hasShape_of_sides hx
      have hcopy : GeometrySides.HasShape s.form s.layers ⟨x.committed, x.committed⟩ :=
        ⟨hshape.committed, hshape.committed⟩
      have hrestart : s.restart n = .ok (s.put n ⟨x.committed, x.committed⟩) := by
        rw [restart, hp, Checked.ok_bind, hc, Checked.ok_bind, h.putProposed_eq hn hx]
      have hsides := h.sides_put hn hcopy
      simp only [Operation.run, Operation.onSides, shift, if_true, hrestart, Checked.ok_bind,
        (sides_eq_ok.1 hsides).2]
      change Geometry.shift s.form x.committed p >>= _ =
        (Geometry.shift s.form x.committed p >>= _) >>= _
      cases hmove : Geometry.shift s.form x.committed p with
      | error fault => rfl
      | ok moved =>
        have hmoved : GeometrySides.HasShape s.form s.layers ⟨x.committed, moved.1⟩ :=
          ⟨hshape.committed, hshape.committed.shift hmove⟩
        simp only [Checked.ok_bind, (h.put n _).putProposed_eq hn hsides, put_put hcopy hmoved]
  | commit =>
    simp only [Operation.run, Operation.onSides, commit, hc, hp, Checked.ok_bind,
      h.putCommitted_eq hn hx]

/-- An operation keeps the shape of the geometries. -/
theorem hasShape_of_onSides (hx : x.HasShape form layers)
    (h : o.onSides form layers n x = .ok (x', answer)) : x'.HasShape form layers := by
  cases o with
  | load nl interior =>
    simp only [Operation.onSides, Checked.bind_eq_ok, Except.ok.injEq, Prod.mk.injEq] at h
    obtain ⟨sites, -, g, hg, rfl, -⟩ := h
    exact ⟨Geometry.hasShape_of_scan hg, hx.proposed⟩
  | propose nl interior =>
    simp only [Operation.onSides, Checked.bind_eq_ok, Except.ok.injEq, Prod.mk.injEq] at h
    obtain ⟨sites, -, g, hg, rfl, -⟩ := h
    exact ⟨hx.committed, Geometry.hasShape_of_scan hg⟩
  | shift fresh p =>
    simp only [Operation.onSides, Checked.bind_eq_ok, Except.ok.injEq, Prod.mk.injEq] at h
    obtain ⟨⟨g, followed⟩, hmove, rfl, -⟩ := h
    have hbase : (if fresh then x.committed else x.proposed).HasShape form layers := by
      split
      · exact hx.committed
      · exact hx.proposed
    exact ⟨hx.committed, hbase.shift hmove⟩
  | commit =>
    cases h
    exact ⟨hx.proposed, hx.proposed⟩

theorem hasShape_of_runEach (hx : x.HasShape form layers)
    (h : runEach (·.onSides form layers n) ops x = .ok (x', answers)) :
    x'.HasShape form layers :=
  runEach_induct _ hx (fun _ _ _ _ _ hx hstep => hasShape_of_onSides hx hstep) h

/-- An operation on the proposed side leaves the committed one alone. -/
theorem committed_of_onSides (hside : o.proposes = true)
    (h : o.onSides form layers n x = .ok (x', answer)) : x'.committed = x.committed := by
  cases o with
  | load nl interior => cases hside
  | propose nl interior =>
    simp only [Operation.onSides, Checked.bind_eq_ok, Except.ok.injEq, Prod.mk.injEq] at h
    obtain ⟨sites, -, g, -, rfl, -⟩ := h
    rfl
  | shift fresh p =>
    simp only [Operation.onSides, Checked.bind_eq_ok, Except.ok.injEq, Prod.mk.injEq] at h
    obtain ⟨moved, -, rfl, -⟩ := h
    rfl
  | commit => cases hside

/-- An operation on the committed side leaves the proposed one alone. -/
theorem proposed_of_onSides (hside : o.proposes = false)
    (h : o.onSides form layers n x = .ok (x', answer)) : x'.proposed = x.proposed := by
  cases o with
  | load nl interior =>
    simp only [Operation.onSides, Checked.bind_eq_ok, Except.ok.injEq, Prod.mk.injEq] at h
    obtain ⟨sites, -, g, -, rfl, -⟩ := h
    rfl
  | propose nl interior => cases hside
  | shift fresh p => cases hside
  | commit =>
    cases h
    rfl

/-- **Operations do to a store** what they do, one after the other, to the two geometries of their
net. -/
theorem runAll_eq (h : s.IsFor nets) (hn : n.toNat < nets) (hx : s.sides n = .ok x)
    (ops : List Operation) : runAll n ops s =
      runEach (·.onSides s.form s.layers n) ops x >>= fun r => .ok (s.put n r.1, r.2) := by
  induction ops generalizing s x with
  | nil => rw [runAll, runEach, runEach, Checked.ok_bind, put_sides hx]
  | cons o ops ih =>
    have hshape := hasShape_of_sides hx
    rw [runAll, runEach, runEach, run_eq h hn hx]
    cases hstep : o.onSides s.form s.layers n x with
    | error fault => rfl
    | ok r =>
      have hr := hasShape_of_onSides hshape hstep
      have hrest := ih (h.put n r.1) (h.sides_put hn hr)
      rw [runAll, form_put, layers_put] at hrest
      simp only [Checked.ok_bind, hrest, bind_assoc]
      -- what the first operation has written is written over
      cases hrun : runEach (·.onSides s.form s.layers n) ops r.1 with
      | error fault => rfl
      | ok r' =>
        have hr' := hasShape_of_runEach hr hrun
        simp only [Checked.ok_bind, put_put hr hr']

/-! ## Every store that is built -/

/-- Where there is room for the geometries, they can be numbered. -/
theorem numbered_of_requireRoom {u : Unit}
    (h : GeometryTable.requireRoom form nets layers = .ok u) :
    nets * form.boxCount layers < Word.size64 ∧ nets * layers < Word.size64 := by
  simp only [GeometryTable.requireRoom, Checked.bind_eq_ok, Word.nat64_eq_ok] at h
  obtain ⟨_, ⟨hboxes, rfl⟩, _, -, _, ⟨hsinks, rfl⟩, -⟩ := h
  exact ⟨hboxes, hsinks⟩

/-- A new store is one for its nets. -/
theorem isFor_of_blank (h : GeometryStore.blank form nets layers = .ok s) :
    s.IsFor nets ∧ s.form = form ∧ s.layers = layers := by
  obtain ⟨_, hroom, h⟩ := Checked.bind_eq_ok.1 h
  cases h
  obtain ⟨hboxes, hsinks⟩ := numbered_of_requireRoom hroom
  have hblank := GeometryBuffer.IsFor.blank hboxes hsinks
  exact ⟨⟨hblank, hblank⟩, rfl, rfl⟩

/-- **A store that is built** has room for all geometries of its nets. -/
theorem Built.isFor (hs : Built form nets layers s) :
    s.IsFor nets ∧ s.form = form ∧ s.layers = layers := by
  induction hs with
  | blank h => exact isFor_of_blank h
  | step hs hn h ih =>
    obtain ⟨hfor, hform, hlayers⟩ := ih
    obtain ⟨x, hx⟩ := hfor.exists_sides hn
    rw [run_eq hfor hn hx] at h
    obtain ⟨r, -, h⟩ := Checked.bind_eq_ok.1 h
    cases h
    exact ⟨hfor.put _ r.1, hform, hlayers⟩

theorem Built.runAll (hs : Built form nets layers s) (hn : n.toNat < nets)
    (h : runAll n ops s = .ok (s', answers)) : Built form nets layers s' :=
  runEach_induct _ hs (fun _ _ _ _ _ hs hstep => hs.step hn hstep) h

/-! ## What is left alone -/

/-- **Operations on the proposed side** leave the committed one of all nets alone, and the other way
round. -/
theorem sides_of_runAll (h : s.IsFor nets) (hn : n.toNat < nets)
    (hrun : runAll n ops s = .ok (s', answers)) :
    ((∀ o ∈ ops, o.proposes = true) → s'.committed = s.committed) ∧
      ((∀ o ∈ ops, o.proposes = false) → s'.proposed = s.proposed) := by
  obtain ⟨x, hx⟩ := h.exists_sides hn
  obtain ⟨hc, hp⟩ := sides_eq_ok.1 hx
  rw [runAll_eq h hn hx] at hrun
  obtain ⟨r, hops, hrun⟩ := Checked.bind_eq_ok.1 hrun
  cases hrun
  constructor
  · intro hside
    have hkept : r.1.committed = x.committed :=
      runEach_induct (fun y => y.committed = x.committed) rfl
        (fun o ho _ _ _ hy hstep => (committed_of_onSides (hside o ho) hstep).trans hy) hops
    rw [put, hkept]
    exact GeometryBuffer.put_read hc
  · intro hside
    have hkept : r.1.proposed = x.proposed :=
      runEach_induct (fun y => y.proposed = x.proposed) rfl
        (fun o ho _ _ _ hy hstep => (proposed_of_onSides (hside o ho) hstep).trans hy) hops
    rw [put, hkept]
    exact GeometryBuffer.put_read hp

/-- **Operations on a net** leave the geometries of another one alone. -/
theorem others_of_runAll (h : s.IsFor nets) (hn : n.toNat < nets) (hne : n ≠ m)
    (hrun : runAll n ops s = .ok (s', answers)) :
    s'.committedOf m = s.committedOf m ∧ s'.proposedOf m = s.proposedOf m ∧
      s'.form = s.form := by
  obtain ⟨x, hx⟩ := h.exists_sides hn
  rw [runAll_eq h hn hx] at hrun
  obtain ⟨r, hops, hrun⟩ := Checked.bind_eq_ok.1 hrun
  cases hrun
  have hr := hasShape_of_runEach (hasShape_of_sides hx) hops
  exact ⟨committedOf_put_of_ne hne hr, proposedOf_put_of_ne hne hr, rfl⟩

/-- **A commit** makes the proposed geometry of its net the committed one. -/
theorem exists_commit (h : s.IsFor nets) (hn : n.toNat < nets) :
    ∃ s' g, s.commit n = .ok s' ∧ s.proposedOf n = .ok g ∧ s'.committedOf n = .ok g ∧
      s'.proposedOf n = .ok g := by
  obtain ⟨x, hx⟩ := h.exists_sides hn
  obtain ⟨hc, hp⟩ := sides_eq_ok.1 hx
  have hshape := (hasShape_of_sides hx).proposed
  have hboth : GeometrySides.HasShape s.form s.layers ⟨x.proposed, x.proposed⟩ :=
    ⟨hshape, hshape⟩
  obtain ⟨hc', hp'⟩ := sides_eq_ok.1 (h.sides_put hn hboth)
  refine ⟨s.put n ⟨x.proposed, x.proposed⟩, x.proposed, ?_, hp, hc', hp'⟩
  rw [commit, hc, Checked.ok_bind, hp, Checked.ok_bind, h.putCommitted_eq hn hx]

/-- Operations on one net, and then operations on another one, do their part each. -/
theorem runAll_runAll_eq_ok (h : s.IsFor nets) (hn : n.toNat < nets) (hm : m.toNat < nets)
    (hne : n ≠ m) (hx : s.sides n = .ok x) (hy : s.sides m = .ok y) {s'' : GeometryStore}
    {answers' : List Bool} :
    (∃ s', runAll n ops s = .ok (s', answers) ∧ runAll m ops' s' = .ok (s'', answers')) ↔
      ∃ x' y', runEach (·.onSides s.form s.layers n) ops x = .ok (x', answers) ∧
        runEach (·.onSides s.form s.layers m) ops' y = .ok (y', answers') ∧
        (s.put n x').put m y' = s'' := by
  have hsecond {x' : GeometrySides} (hx' : x'.HasShape s.form s.layers) :
      runAll m ops' (s.put n x') = runEach (·.onSides s.form s.layers m) ops' y >>=
        fun r => .ok ((s.put n x').put m r.1, r.2) :=
    runAll_eq (h.put n x') hm ((sides_put_of_ne hne hx').trans hy) ops'
  rw [runAll_eq h hn hx]
  constructor
  · rintro ⟨s', hfirst, hrest⟩
    obtain ⟨⟨x', _⟩, hops, hfirst⟩ := Checked.bind_eq_ok.1 hfirst
    cases hfirst
    rw [hsecond (hasShape_of_runEach (hasShape_of_sides hx) hops)] at hrest
    obtain ⟨⟨y', _⟩, hops', hrest⟩ := Checked.bind_eq_ok.1 hrest
    cases hrest
    exact ⟨x', y', hops, hops', rfl⟩
  · rintro ⟨x', y', hops, hops', rfl⟩
    refine ⟨s.put n x', by rw [hops, Checked.ok_bind], ?_⟩
    rw [hsecond (hasShape_of_runEach (hasShape_of_sides hx) hops), hops', Checked.ok_bind]

/-- **Operations on two nets** can be done in either order. -/
theorem runAll_comm (h : s.IsFor nets) (hn : n.toNat < nets) (hm : m.toNat < nets) (hne : n ≠ m)
    {s'' : GeometryStore} {answers' : List Bool} :
    (∃ s', runAll n ops s = .ok (s', answers) ∧ runAll m ops' s' = .ok (s'', answers')) ↔
      ∃ s', runAll m ops' s = .ok (s', answers') ∧ runAll n ops s' = .ok (s'', answers) := by
  obtain ⟨x, hx⟩ := h.exists_sides hn
  obtain ⟨y, hy⟩ := h.exists_sides hm
  rw [runAll_runAll_eq_ok h hn hm hne hx hy, runAll_runAll_eq_ok h hm hn hne.symm hy hx]
  have hcomm {x' y' : GeometrySides} {ops ops' : List Operation} {answers answers' : List Bool}
      (hops : runEach (·.onSides s.form s.layers n) ops x = .ok (x', answers))
      (hops' : runEach (·.onSides s.form s.layers m) ops' y = .ok (y', answers')) :
      (s.put n x').put m y' = (s.put m y').put n x' :=
    put_comm hne (hasShape_of_runEach (hasShape_of_sides hx) hops)
      (hasShape_of_runEach (hasShape_of_sides hy) hops')
  constructor
  · rintro ⟨x', y', hops, hops', rfl⟩
    exact ⟨y', x', hops', hops, (hcomm hops hops').symm⟩
  · rintro ⟨y', x', hops', hops, rfl⟩
    exact ⟨x', y', hops, hops', hcomm hops hops'⟩

/-- **The operations on a net are confined to it.** In every store that operations have made of a
new one, a net in range has both geometries, and whatever operations on it have been done,

* if all of them work on the proposed side, nothing committed has changed, and the other way round,
* every other net has the geometries it had, and so its costs, its wirelength and whether its two
  sides agree.

A commit succeeds and makes the proposed geometry of its net the committed one. Operations on two
nets have the same outcome in either order. -/
theorem operations_confined (hs : Built form nets layers s) (hn : n.toNat < nets) :
    (∃ c p, s.committedOf n = .ok c ∧ s.proposedOf n = .ok p) ∧
    (∀ ops s' answers, runAll n ops s = .ok (s', answers) →
      Built form nets layers s' ∧
      ((∀ o ∈ ops, o.proposes = true) → s'.committed = s.committed) ∧
      ((∀ o ∈ ops, o.proposes = false) → s'.proposed = s.proposed) ∧
      ∀ m, n ≠ m → s'.committedOf m = s.committedOf m ∧ s'.proposedOf m = s.proposedOf m ∧
        s'.agrees m = s.agrees m ∧
        ∀ (α : Type) [CostScalar α] (factors : ChannelFactors α),
          s'.committedCost factors m = s.committedCost factors m ∧
          s'.proposedCost factors m = s.proposedCost factors m ∧
          (s'.committedLength m : Checked α) = s.committedLength m) ∧
    (∃ s' g, s.commit n = .ok s' ∧ s.proposedOf n = .ok g ∧ s'.committedOf n = .ok g ∧
      s'.proposedOf n = .ok g) ∧
    (∀ m, m.toNat < nets → n ≠ m → ∀ ops ops' s'' answers answers',
      (∃ s', runAll n ops s = .ok (s', answers) ∧ runAll m ops' s' = .ok (s'', answers')) ↔
        ∃ s', runAll m ops' s = .ok (s', answers') ∧ runAll n ops s' = .ok (s'', answers)) := by
  obtain ⟨hfor, -, -⟩ := hs.isFor
  refine ⟨?_, fun ops s' answers hrun => ?_, exists_commit hfor hn,
    fun m hm hne ops ops' s'' answers answers' => runAll_comm hfor hn hm hne⟩
  · obtain ⟨x, hx⟩ := hfor.exists_sides hn
    obtain ⟨hc, hp⟩ := sides_eq_ok.1 hx
    exact ⟨_, _, hc, hp⟩
  · obtain ⟨hcommitted, hproposed⟩ := sides_of_runAll hfor hn hrun
    refine ⟨hs.runAll hn hrun, hcommitted, hproposed, fun m hne => ?_⟩
    obtain ⟨hc, hp, hform⟩ := others_of_runAll hfor hn hne hrun
    refine ⟨hc, hp, by rw [agrees, agrees, hc, hp], fun α _ factors => ⟨?_, ?_, ?_⟩⟩
    · rw [committedCost, committedCost, hc, hform]
    · rw [proposedCost, proposedCost, hp, hform]
    · rw [committedLength, committedLength, hc, hform]

end GeometryStore

namespace Sample

/-- Three nets on two layers with one box each, so that boxes and counts have strides of their
own. -/
def threeNets : GeometryStore := result (GeometryStore.blank .cube 3 2) (by decide +kernel)

/-- The driver of a net without sinks moves, and the net is committed. -/
def moveAlone : List GeometryStore.Operation :=
  [.shift true ⟨⟨1, 1, 0⟩, ⟨2, 2, 1⟩, true⟩, .commit]

/-- The net in the middle has moved. -/
def middleMoved : GeometryStore × List Bool :=
  result (GeometryStore.runAll ⟨1⟩ moveAlone threeNets) (by decide +kernel)

/-- The last net has moved after it. -/
def lastMoved : GeometryStore × List Bool :=
  result (GeometryStore.runAll ⟨2⟩ moveAlone middleMoved.1) (by decide +kernel)

end Sample

/-- The net in the middle moves, and its neighbours have not been measured still. The last one moves
after it or before it. -/
theorem GeometryStore.operations_confined_small :
    Sample.middleMoved.1.committedOf ⟨1⟩ = .ok ⟨[.point 2 2], [0, 0]⟩ ∧
    Sample.middleMoved.1.committedOf ⟨0⟩ = .ok (.blank .cube 2) ∧
    Sample.middleMoved.1.proposedOf ⟨2⟩ = .ok (.blank .cube 2) ∧
    ∃ s, runAll ⟨2⟩ Sample.moveAlone Sample.threeNets = .ok (s, [true, true]) ∧
      runAll ⟨1⟩ Sample.moveAlone s = .ok (Sample.lastMoved.1, [true, true]) := by
  have hbuilt : Built .cube 3 2 Sample.threeNets := .blank (Sample.eq_ok_result (by decide +kernel))
  have hmiddle : runAll ⟨1⟩ Sample.moveAlone Sample.threeNets =
      .ok (Sample.middleMoved.1, Sample.middleMoved.2) := Sample.eq_ok_result (by decide +kernel)
  have hlast : runAll ⟨2⟩ Sample.moveAlone Sample.middleMoved.1 =
      .ok (Sample.lastMoved.1, Sample.lastMoved.2) := Sample.eq_ok_result (by decide +kernel)
  obtain ⟨-, hconfined, -, hcomm⟩ := operations_confined hbuilt (n := ⟨1⟩) (by decide)
  obtain ⟨-, -, -, hothers⟩ := hconfined _ _ _ hmiddle
  refine ⟨by decide +kernel, ?_, ?_, ?_⟩
  · exact (hothers ⟨0⟩ (by decide)).1.trans (by decide +kernel)
  · exact (hothers ⟨2⟩ (by decide)).2.1.trans (by decide +kernel)
  · exact (hcomm ⟨2⟩ (by decide) (by decide) _ _ _ _ _).1 ⟨_, hmiddle, hlast⟩

end WireCost
