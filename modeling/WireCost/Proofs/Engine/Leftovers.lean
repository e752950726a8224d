import WireCost.Proofs.Engine.Reachable

/-! # Leftovers of earlier moves

The proposed tables keep what earlier moves and verifications have written there. No operation reads
such leftovers before it has written over them.

* **`Engine.Alike`** — two engines that differ in leftovers only.
* **`Engine.Alike.evaluate`**, **`Engine.Alike.commit`**, … — every operation answers the same on
  both, and they stay alike. -/

namespace WireCost

variable {δ α : Type}

/-! ## Timings -/

/-- Two tables of timings that differ only where the pending move has not touched them. -/
structure ConnectionTable.Alike (t t' : ConnectionTable δ α) : Prop where
  same : t' = { t with proposed := t'.proposed }
  size : t'.proposed.size = t.proposed.size
  touched : ∀ slot ∈ t.touched, t'.proposed[slot]? = t.proposed[slot]?

namespace ConnectionTable.Alike

variable {t t' : ConnectionTable δ α}

theorem offsets (h : Alike t t') : t'.offsets = t.offsets := by rw [h.same]

theorem committed (h : Alike t t') : t'.committed = t.committed := by rw [h.same]

theorem touched_eq (h : Alike t t') : t'.touched = t.touched := by rw [h.same]

/-- Accepting a move reads the touched timings only. -/
theorem commit (h : Alike t t') : Alike t.commit t'.commit := by
  have hcommit : t'.commit.committed = t.commit.committed := by
    -- induction on the touched slots, for any committed timings so far
    have hloop : ∀ (slots : List Nat) (xs : Array (Connection δ α)), (∀ slot ∈ slots,
        t'.proposed[slot]? = t.proposed[slot]?) →
        slots.foldl (commitSlot t'.proposed) xs = slots.foldl (commitSlot t.proposed) xs := by
      intro slots
      induction slots with
      | nil => exact fun xs _ => rfl
      | cons slot slots ih =>
        intro xs hslots
        have hfirst : commitSlot t'.proposed xs slot = commitSlot t.proposed xs slot := by
          rw [commitSlot, commitSlot, hslots slot List.mem_cons_self]
        rw [List.foldl_cons, List.foldl_cons, hfirst]
        exact ih _ fun s hs => hslots s (List.mem_cons_of_mem slot hs)
    rw [ConnectionTable.commit, ConnectionTable.commit, ← Array.foldl_toList,
      ← Array.foldl_toList, h.touched_eq, h.committed]
    exact hloop _ _ fun slot hslot => h.touched slot (Array.mem_toList_iff.1 hslot)
  refine ⟨?_, h.size, by simp [ConnectionTable.commit]⟩
  have hsame : t'.commit = { t.commit with
      committed := t'.commit.committed
      proposed := t'.commit.proposed } := by
    rw [h.same]
    rfl
  rw [hsame, hcommit]

theorem rollback (h : Alike t t') : Alike t.rollback t'.rollback := by
  refine ⟨?_, h.size, by simp [ConnectionTable.rollback]⟩
  rw [h.same]
  rfl

variable [CostScalar α] [DelayScalar δ α] {nl : Netlist} {inputs : TimingInputs δ} {n : NetId}
  {m : Move} {pin : Pin} {timing : Option (TimingInputs δ)} {delta : α}

/-- Timing a connection writes its proposed timing before it is touched. -/
theorem propose (h : Alike t t') (sink : Nat) : Checked.Agree
    (fun x y => Alike x.1 y.1 ∧ y.2 = x.2) (t.propose nl inputs n sink)
    (t'.propose nl inputs n sink) := by
  rw [ConnectionTable.propose, ConnectionTable.propose, h.offsets, h.committed]
  refine .bind_same fun slot _ => .bind_same fun delay _ => .bind_same fun old _ => ?_
  split
  · exact .ok ⟨h, rfl⟩
  · refine .bind_same fun timed _ => .ok ⟨⟨?_, ?_, ?_⟩, rfl⟩
    · rw [h.same]
    · simp [h.size]
    · intro slot' hslot'
      -- the slot that is touched now holds the same timing in both, the others did before
      simp only [Array.mem_push] at hslot'
      simp only [Array.getElem?_setIfInBounds, h.size]
      split
      · rfl
      · rename_i hne
        exact h.touched slot' (hslot'.resolve_right (Ne.symm hne))

theorem retime (h : Alike t t') : Checked.Agree (fun x y => Alike x.1 y.1 ∧ y.2 = x.2)
    (t.retime nl inputs m n pin) (t'.retime nl inputs m n pin) := by
  rw [ConnectionTable.retime, ConnectionTable.retime]
  split
  · refine .bind_same fun net _ => .foldlM ⟨h, rfl⟩ ?_
    rintro ⟨t₁, c₁⟩ ⟨t₁', c₁'⟩ sink - ⟨h₁, rfl⟩
    refine (h₁.propose sink).bind ?_
    rintro ⟨t₂, c₂⟩ ⟨t₂', c₂'⟩ ⟨h₂, rfl⟩
    exact .ok ⟨h₂, rfl⟩
  · refine .bind_same fun driver _ => .bind_same fun pin' _ => ?_
    split
    · exact .ok ⟨h, rfl⟩
    · split
      · exact .ok ⟨h, rfl⟩
      · exact h.propose _

theorem recompute (h : Alike t t') : Checked.Agree (fun x y => Alike x.1 y.1 ∧ y.2 = x.2)
    (t.recompute nl inputs) (t'.recompute nl inputs) := by
  refine .foldlM ⟨h, rfl⟩ ?_
  rintro ⟨t₁, c₁⟩ ⟨t₁', c₁'⟩ net - ⟨h₁, rfl⟩
  refine .bind_same fun n _ => ?_
  split
  · exact .ok ⟨h₁, rfl⟩
  · refine .foldlM ⟨h₁, rfl⟩ ?_
    rintro ⟨t₂, c₂⟩ ⟨t₂', c₂'⟩ sink - ⟨h₂, rfl⟩
    rw [recomputeOne, recomputeOne]
    dsimp only at h₂ ⊢
    rw [h₂.offsets, h₂.committed]
    refine .bind_same fun slot _ => .bind_same fun delay _ => .bind_same fun timed _ =>
      .bind_same fun _ _ => .ok ⟨⟨?_, h₂.size, h₂.touched⟩, rfl⟩
    rw [h₂.same]

end ConnectionTable.Alike

/-! ## Engines -/

namespace Engine

/-- **Two engines that differ in leftovers only:** in proposed geometries of nets that are not
marked, in proposed timings that are not touched, and in which nets they list. -/
structure Alike (e e' : Engine δ α) : Prop where
  same : e' = { e with
    geometry := { e.geometry with proposed := e'.geometry.proposed }
    affected := e'.affected
    connections := e'.connections }
  size : e'.geometry.proposed.size = e.geometry.proposed.size
  proposed : ∀ (i : Nat) (s : NetState α), e.nets[i]? = some s → s.update ≠ .untouched →
    e'.geometry.proposed[i]? = e.geometry.proposed[i]?
  timings : e.connections.Alike e'.connections

namespace Alike

variable {e e' : Engine δ α} {nl : Netlist} {n : NetId}

theorem nets (h : Alike e e') : e'.nets = e.nets := by rw [h.same]

theorem pending (h : Alike e e') : e'.pending = e.pending := by rw [h.same]

theorem interior (h : Alike e e') : e'.interior = e.interior := by rw [h.same]

theorem factors (h : Alike e e') : e'.factors = e.factors := by rw [h.same]

theorem options (h : Alike e e') : e'.options = e.options := by rw [h.same]

theorem form (h : Alike e e') : e'.geometry.form = e.geometry.form := by rw [h.same]

theorem committed (h : Alike e e') : e'.geometry.committed = e.geometry.committed := by
  rw [h.same]

theorem setup (h : Alike e e') : SameSetup e e' :=
  ⟨h.interior, h.factors, h.form, by rw [h.same]⟩

/-- Changing the state of a net, up to how its proposed geometry came about. -/
theorem updateNet (h : Alike e e') (n : NetId) {f : NetState α → NetState α}
    (hf : ∀ s, (f s).update = s.update) : Alike (e.updateNet n f) (e'.updateNet n f) where
  same := by
    rw [h.same]
    rfl
  size := h.size
  proposed := by
    intro i s hs hupdate
    obtain ⟨s₀, hs₀, rfl⟩ := getElem?_modify_eq_some.1 hs
    refine h.proposed i s₀ hs₀ ?_
    split at hupdate
    · rwa [hf] at hupdate
    · exact hupdate
  timings := h.timings

/-- Writing a proposed geometry. -/
theorem proposing (h : Alike e e') (n : NetId) (g : Geometry) (update : NetUpdate) :
    Alike (e.proposing n g update) (e'.proposing n g update) where
  same := by
    rw [h.same]
    rfl
  size := by
    have hsize := h.size
    simpa [Engine.proposing, Engine.updateNet, GeometryTable.withProposed] using hsize
  proposed := by
    intro i s hs hupdate
    obtain ⟨s₀, hs₀, rfl⟩ := getElem?_modify_eq_some.1 hs
    simp only [Engine.proposing, Engine.updateNet, GeometryTable.withProposed,
      Array.getElem?_setIfInBounds, h.size]
    split
    · rfl
    · -- another net keeps its mark, and with it what it proposes
      rename_i hn
      rw [if_neg hn] at hupdate
      exact h.proposed i s₀ hs₀ hupdate
  timings := h.timings

theorem propose (h : Alike e e') : Checked.Agree (fun t t' => ∃ g,
    t = e.geometry.withProposed n g ∧ t' = e'.geometry.withProposed n g)
    (e.geometry.propose nl e.interior n) (e'.geometry.propose nl e'.interior n) := by
  have hentry : Checked.Agree (fun _ _ => True) (e.geometry.proposedOf n)
      (e'.geometry.proposedOf n) := by
    rw [GeometryTable.proposedOf, GeometryTable.proposedOf]
    -- which geometry is there does not matter, only that there is one
    by_cases hlt : n.toNat < e.geometry.proposed.size
    · rw [entry_of_some (Array.getElem?_eq_getElem hlt),
        entry_of_some (Array.getElem?_eq_getElem (h.size ▸ hlt))]
      exact .ok trivial
    · have hnone := Array.getElem?_eq_none (Nat.le_of_not_lt hlt)
      have hnone' := Array.getElem?_eq_none (Nat.le_of_not_lt (h.size ▸ hlt))
      rw [entry, entry, hnone, hnone']
      exact .error _
  rw [GeometryTable.propose, GeometryTable.propose]
  refine hentry.bind fun _ _ _ => ?_
  rw [h.setup.scan]
  exact .bind_same fun g _ => .ok ⟨g, rfl, rfl⟩

theorem rescan (h : Alike e e') : Checked.Agree (fun x y => Alike x y ∧ ∃ g,
    x = e.proposing n g .rescanned ∧ y = e'.proposing n g .rescanned) (e.rescan nl n)
    (e'.rescan nl n) := by
  rw [Engine.rescan, Engine.rescan]
  refine h.propose.bind ?_
  rintro _ _ ⟨g, rfl, rfl⟩
  exact .ok ⟨h.proposing n g .rescanned, g, rfl, rfl⟩

theorem stateOf (h : Alike e e') (n : NetId) : e'.stateOf n = e.stateOf n := by
  rw [Engine.stateOf, Engine.stateOf, h.nets]

/-- Scanning a net into its proposed geometry. -/
theorem scanning (h : Alike e e') (n : NetId) (g : Geometry) :
    Alike { e with geometry := e.geometry.withProposed n g }
      { e' with geometry := e'.geometry.withProposed n g } := by
  refine ⟨?_, by simpa [GeometryTable.withProposed] using h.size, ?_, h.timings⟩
  · rw [h.same]
    rfl
  · intro i s hs hmark
    simp only [GeometryTable.withProposed, Array.getElem?_setIfInBounds, h.size]
    split
    · rfl
    · exact h.proposed i s hs hmark

/-- **Following a pin reads no leftovers:** the proposed geometry is read only if it has been
changed. -/
theorem follow (h : Alike e e') (r : Relocation) (pin : Pin) :
    Checked.Agree Alike (e.follow nl n r pin) (e'.follow nl n r pin) := by
  have hrescan : Checked.Agree Alike (e.rescan nl n) (e'.rescan nl n) :=
    h.rescan.mono fun _ _ _ _ hxy => hxy.1
  have hshift : e'.shiftOf r pin = e.shiftOf r pin := by
    rw [Engine.shiftOf, Engine.shiftOf, h.interior]
  rw [Engine.follow, Engine.follow, h.stateOf]
  refine .bind_same fun s hs => ?_
  rw [Engine.stateOf, entry_eq_ok] at hs
  split
  · exact .ok h
  · have hsmall : e'.options.smallNet = e.options.smallNet := by rw [h.options]
    refine .bind_same fun net _ => ?_
    rw [hsmall]
    split
    · exact hrescan
    · rw [hshift]
      refine .bind_same fun shift _ => ?_
      -- both start from the same geometry
      have hbase : (if s.update = .untouched then e'.geometry.committedOf n
          else e'.geometry.proposedOf n) = if s.update = .untouched then e.geometry.committedOf n
          else e.geometry.proposedOf n := by
        -- an unmarked net starts from the committed geometry, a marked one from a proposal, and
        -- both hold the same
        by_cases hfresh : s.update = .untouched
        · rw [if_pos hfresh, if_pos hfresh, GeometryTable.committedOf, GeometryTable.committedOf,
            h.committed]
        · rw [if_neg hfresh, if_neg hfresh, GeometryTable.proposedOf, GeometryTable.proposedOf,
            entry, entry, h.proposed n.toNat s hs hfresh]
      have hmoved : Checked.Agree (fun r r' => ∃ g followed,
          r = (e.geometry.withProposed n g, followed) ∧
            r' = (e'.geometry.withProposed n g, followed))
          (e.geometry.shift n (s.update = .untouched) shift)
          (e'.geometry.shift n (s.update = .untouched) shift) := by
        simp only [GeometryTable.shift, decide_eq_true_eq, ← Checked.ite_bind]
        rw [hbase]
        have hform : Geometry.shift e'.geometry.form = Geometry.shift e.geometry.form := by
          rw [h.form]
        refine .bind_same fun base _ => ?_
        rw [hform]
        exact .bind_same fun r _ => .ok ⟨r.1, r.2, rfl, rfl⟩
      refine hmoved.bind ?_
      rintro _ _ ⟨g, followed, rfl, rfl⟩
      cases followed with
      | true => exact .ok (h.proposing n g .adjusted)
      | false => exact (h.scanning n g).rescan.mono fun _ _ _ _ hxy => hxy.1

/-- Scanning a net into its committed geometry. -/
theorem loading (h : Alike e e') (n : NetId) (g : Geometry) :
    Alike { e with geometry := e.geometry.withCommitted n g }
      { e' with geometry := e'.geometry.withCommitted n g } := by
  refine ⟨?_, h.size, h.proposed, h.timings⟩
  rw [h.same]
  rfl

theorem load (h : Alike e e') : Checked.Agree (fun t t' => ∃ g,
    t = e.geometry.withCommitted n g ∧ t' = e'.geometry.withCommitted n g)
    (e.geometry.load nl e.interior n) (e'.geometry.load nl e'.interior n) := by
  rw [GeometryTable.load, GeometryTable.load, GeometryTable.committedOf,
    GeometryTable.committedOf, h.committed, h.setup.scan]
  refine .bind_same fun _ _ => .bind_same fun g _ => .ok ⟨g, rfl, ?_⟩
  rw [GeometryTable.withCommitted, h.committed]

theorem countedNets (h : Alike e e') : e'.countedNets = e.countedNets := by
  rw [Engine.countedNets, Engine.countedNets, Engine.netIds, Engine.netIds, h.nets]

/-! ### Ending the move -/

/-- Engines without marks are alike as soon as the rest is. -/
theorem of_unmarked (he : e.Orderly) (hidle : e.pending = false) (hsame : e' = { e with
      geometry := { e.geometry with proposed := e'.geometry.proposed }
      affected := e'.affected
      connections := e'.connections })
    (hsize : e'.geometry.proposed.size = e.geometry.proposed.size)
    (htimings : e.connections.Alike e'.connections) : Alike e e' :=
  ⟨hsame, hsize, fun i s hs hmark => absurd ((he.idle hidle).nets i s hs).2 hmark, htimings⟩

/-- **A commit reads no leftovers:** the nets that it reads are marked. -/
theorem commit (h : Alike e e') (he : e.Orderly)
    (haffected : e.pending = true → e'.affected = e.affected) :
    Checked.Agree Alike e.commit e'.commit := by
  by_cases hpending : e.pending = true
  · have hsizes : e.geometry.proposed.size = e.geometry.committed.size :=
      he.proposedSize.trans he.committedSize.symm
    have hsizes' : e'.geometry.proposed.size = e'.geometry.committed.size := by
      rw [h.size, h.committed, hsizes]
    obtain ⟨x, hx⟩ := he.exists_commit hpending
    obtain ⟨y, hy⟩ := exists_commit hsizes' (h.pending.trans hpending) fun n hn => by
      rw [h.size, he.proposedSize]
      exact (he.listed hpending).2 n (haffected hpending ▸ hn)
    have hdone := he.accepted hx
    have hdone' := accepted_of_commit hsizes' hy
    -- the listed nets are marked, so both commit the same geometries
    have hcommitted : y.geometry.committed = x.geometry.committed := by
      refine Array.ext_getElem? fun i => ?_
      rw [hdone.geometries, hdone'.geometries, haffected hpending, h.committed]
      by_cases hi : i ∈ e.affected.map NetId.toNat
      · obtain ⟨n, hn, rfl⟩ := List.mem_map.1 hi
        have hs := Array.getElem?_eq_getElem ((he.listed hpending).2 n hn)
        rw [if_pos hi, if_pos hi, h.proposed n.toNat _ hs (he.marked hpending _ _ hs hi).2]
      · rw [if_neg hi, if_neg hi]
    have hnets : y.nets = x.nets := by
      refine Array.ext_getElem? fun i => ?_
      rw [hdone.nets, hdone'.nets, haffected hpending, h.nets]
    have hproposed : x.geometry.proposed = e.geometry.proposed := by rw [hdone.rest]
    have hproposed' : y.geometry.proposed = e'.geometry.proposed := by rw [hdone'.rest]
    rw [hx, hy]
    refine .ok (of_unmarked (he.commit hx) (by rw [hdone.rest]) ?_ ?_ ?_)
    · rw [hdone'.rest, hcommitted, hnets, h.same, hdone.rest]
    · rw [hproposed, hproposed', h.size]
    · rw [hdone.rest, hdone'.rest]
      exact h.timings.commit
  · rw [Engine.commit, Engine.commit, h.pending]
    exact .bind_same fun _ hok => absurd (require_eq_ok.1 hok) hpending

/-- A rollback does not look at proposals. -/
theorem rollback (h : Alike e e') (he : e.Orderly)
    (haffected : e.pending = true → e'.affected = e.affected) :
    Checked.Agree Alike e.rollback e'.rollback := by
  by_cases hpending : e.pending = true
  · have hx := rollback_eq_ok.2 ⟨hpending, rfl⟩
    have hy := rollback_eq_ok.2 ⟨h.pending.trans hpending, rfl⟩
    rw [hx, hy]
    refine .ok (of_unmarked (he.rollback hx) rfl ?_ h.size h.timings.rollback)
    have hnets : (e'.affected.foldl (fun e n => e.updateNet n NetState.discard) e').nets =
        (e.affected.foldl (fun e n => e.updateNet n NetState.discard) e).nets := by
      refine Array.ext_getElem? fun i => ?_
      rw [getElem?_foldl_updateNet (f := NetState.discard) fun _ => rfl,
        getElem?_foldl_updateNet (f := NetState.discard) fun _ => rfl, haffected hpending, h.nets]
    rw [hnets, h.same]
  · rw [Engine.rollback, Engine.rollback, h.pending]
    exact .bind_same fun _ hok => absurd (require_eq_ok.1 hok) hpending

/-! ### Looking at the pins again -/

variable [CostScalar α]

theorem committedCost (h : Alike e e') (n : NetId) :
    e'.committedCost n = e.committedCost n := by
  rw [h.same]
  rfl

theorem recomputeBoxCost (h : Alike e e') : e'.recomputeBoxCost = e.recomputeBoxCost := by
  have hcost : e'.committedCost = e.committedCost := funext h.committedCost
  rw [Engine.recomputeBoxCost, Engine.recomputeBoxCost, h.countedNets, hcost]

theorem rebuild (h : Alike e e') (withLength : Bool) : Checked.Agree
    (fun x y => Alike x.1 y.1 ∧ y.2 = x.2) (e.rebuild nl withLength)
    (e'.rebuild nl withLength) := by
  have hids : e'.netIds = e.netIds := by rw [netIds, netIds, h.nets]
  rw [Engine.rebuild, Engine.rebuild, h.pending, h.nets, hids]
  refine .bind_same fun _ _ => .bind_same fun _ _ => ?_
  have hloop : Checked.Agree (fun x y => Alike x.1 y.1 ∧ y.2 = x.2)
      (e.netIds.foldlM (rebuildNet nl withLength) (e, ⟨zero, zero⟩))
      (e.netIds.foldlM (rebuildNet nl withLength) (e', ⟨zero, zero⟩)) := by
    refine .foldlM ⟨h, rfl⟩ ?_
    rintro ⟨x, totals⟩ ⟨y, totals'⟩ n - ⟨hxy, rfl⟩
    dsimp only at hxy
    rw [rebuildNet, rebuildNet]
    refine .bind_same fun net _ => ?_
    dsimp only
    split
    · exact .ok ⟨hxy.updateNet n fun _ => rfl, rfl⟩
    · refine hxy.load.bind ?_
      rintro _ _ ⟨g, rfl, rfl⟩
      have hloaded := hxy.loading n g
      have hcost : (y.geometry.withCommitted n g).committedCost y.factors n =
          (x.geometry.withCommitted n g).committedCost x.factors n := hloaded.committedCost n
      have hlength : (y.geometry.withCommitted n g).committedLength (α := α) n =
          (x.geometry.withCommitted n g).committedLength n := by
        rw [hxy.same]
        rfl
      simp only [← Checked.ite_bind]
      rw [hcost, hlength]
      refine .bind_same fun cost _ => .bind_same fun length _ => .ok ⟨?_, rfl⟩
      exact hloaded.updateNet n (f := fun s => { s with ignored := false, cost }) fun _ => rfl
  refine hloop.bind ?_
  rintro ⟨x, totals⟩ ⟨y, totals'⟩ ⟨hxy, rfl⟩
  dsimp only
  split
  · exact .ok ⟨hxy, rfl⟩
  · exact .ok ⟨hxy, rfl⟩

theorem isClose (h : Alike e e') (tracked recomputed : α) :
    e'.isClose tracked recomputed = e.isClose tracked recomputed := by
  rw [Engine.isClose, Engine.isClose, h.options]

/-- **A verification reads no leftovers,** since it scans a net before it compares it. -/
theorem verifyNet (h : Alike e e') (n : NetId) : Checked.Agree
    (fun x y => Alike x.1 y.1 ∧ y.2 = x.2) (e.verifyNet nl n) (e'.verifyNet nl n) := by
  rw [Engine.verifyNet, Engine.verifyNet]
  refine h.propose.bind ?_
  rintro _ _ ⟨g, rfl, rfl⟩
  have hscanned := h.scanning n g
  have hcommitted : (e'.geometry.withProposed n g).committedOf n =
      (e.geometry.withProposed n g).committedOf n := by
    rw [h.same]
    rfl
  -- the leftover of the net has just been written over
  have hproposed : (e'.geometry.withProposed n g).proposedOf n =
      (e.geometry.withProposed n g).proposedOf n := by
    have hsame : (e'.geometry.withProposed n g).proposed[n.toNat]? =
        (e.geometry.withProposed n g).proposed[n.toNat]? := by
      simp only [GeometryTable.withProposed, Array.getElem?_setIfInBounds, h.size, if_true]
    rw [GeometryTable.proposedOf, GeometryTable.proposedOf, entry, entry, hsame]
  rw [hcommitted, hproposed]
  refine .bind_same fun committed _ => .bind_same fun scanned _ => ?_
  split
  · exact .ok ⟨hscanned, rfl⟩
  · rw [hscanned.committedCost, hscanned.stateOf]
    refine .bind_same fun cost _ => .bind_same fun s _ => ?_
    split
    · exact .ok ⟨hscanned, rfl⟩
    · exact .ok ⟨hscanned, rfl⟩

theorem verify (h : Alike e e') : Checked.Agree (fun x y => Alike x.1 y.1 ∧ y.2 = x.2)
    (e.verify nl) (e'.verify nl) := by
  rw [Engine.verify, Engine.verify, h.pending, h.countedNets]
  split
  · exact .ok ⟨h, rfl⟩
  · rename_i hidle
    clear hidle
    generalize e.countedNets = ns
    -- induction on the nets still to be verified, for any two alike engines
    induction ns generalizing e e' with
    | nil => exact .ok ⟨h, rfl⟩
    | cons n ns ih =>
      refine (h.verifyNet n).bind ?_
      rintro ⟨x, found⟩ ⟨y, found'⟩ ⟨hxy, hfound⟩
      obtain rfl : found' = found := hfound
      cases found' with
      | some mismatch => exact .ok ⟨hxy, rfl⟩
      | none => exact ih hxy

/-! ### Evaluating a move -/

theorem touch (h : Alike e e') (n : NetId) (s : NetState α) :
    Alike (e.touch n s) (e'.touch n s) := by
  rw [Engine.touch, Engine.touch]
  split
  · exact h
  · have hupdate := h.updateNet n (f := fun s => { s with proposed := some zero }) fun _ => rfl
    exact ⟨by rw [hupdate.same], hupdate.size, hupdate.proposed, hupdate.timings⟩

variable [DelayScalar δ α] {m : Move} {timing : Option (TimingInputs δ)} {delta : α}

/-- **A visit reads no leftovers.** -/
theorem visit (h : Alike e e') (r : Relocation) (p : PinId) :
    Checked.Agree (fun x y => Alike x.1 y.1 ∧ y.2 = x.2) (Engine.visit nl m timing r (e, delta) p)
      (Engine.visit nl m timing r (e', delta) p) := by
  rw [Engine.visit, Engine.visit]
  refine .bind_same fun pin _ => ?_
  split
  · exact .ok ⟨h, rfl⟩
  · rename_i n _
    dsimp only
    rw [h.stateOf]
    refine .bind_same fun s _ => ?_
    split
    · exact .ok ⟨h, rfl⟩
    · refine ((h.touch n s).follow r pin).bind fun e₁ e₁' h₁ => ?_
      cases timing with
      | none => exact .ok ⟨h₁, rfl⟩
      | some inputs =>
        dsimp only
        rw [retime_eq, retime_eq]
        refine (h₁.timings.retime.map (S := fun x y => Alike x.1 y.1 ∧ y.2 = x.2) ?_).bind ?_
        · rintro ⟨t, c⟩ ⟨t', c'⟩ ⟨ht, rfl⟩
          exact ⟨⟨by rw [h₁.same], h₁.size, h₁.proposed, ht⟩, rfl⟩
        · rintro ⟨e₂, c⟩ ⟨e₂', c'⟩ ⟨h₂, rfl⟩
          exact .ok ⟨h₂, rfl⟩

end Alike

/-- **In the middle of an evaluation:** two alike engines that list the same nets, all of which are
marked. -/
structure InStep (e e' : Engine δ α) : Prop where
  alike : Alike e e'
  affected : e'.affected = e.affected
  marked : ∀ n ∈ e.affected, ∃ s, e.nets[n.toNat]? = some s ∧ s.update ≠ .untouched

namespace InStep

variable {e e' : Engine δ α} {nl : Netlist} {n : NetId}

section

variable [CostScalar α] [DelayScalar δ α] {m : Move} {timing : Option (TimingInputs δ)} {delta : α}

/-- A visit lists and marks the same net on both. -/
theorem visit (h : InStep e e') (r : Relocation) (p : PinId) :
    Checked.Agree (fun x y => InStep x.1 y.1 ∧ y.2 = x.2) (Engine.visit nl m timing r (e, delta) p)
      (Engine.visit nl m timing r (e', delta) p) := by
  refine (h.alike.visit r p).mono ?_
  rintro ⟨x, c⟩ ⟨y, c'⟩ hx hy ⟨hxy, hc⟩
  have hvisited : e'.visitedNet nl p = e.visitedNet nl p := by
    rw [visitedNet, visitedNet, h.alike.nets]
  refine ⟨⟨hxy, ?_, ?_⟩, hc⟩
  · obtain ⟨hnone, rfl⟩ | ⟨n, s, _, _, hsome, -, honly, haffected⟩ := (visit_eq_ok.1 hx).effect
    · obtain ⟨-, rfl⟩ | ⟨n', _, _, _, hsome', -⟩ := (visit_eq_ok.1 hy).effect
      · exact h.affected
      · rw [hvisited, hnone] at hsome'
        cases hsome'
    · obtain ⟨hnone', -⟩ | ⟨n', s', _, _, hsome', -, honly', haffected'⟩ :=
        (visit_eq_ok.1 hy).effect
      · rw [hvisited, hsome] at hnone'
        cases hnone'
      · obtain rfl : n = n' := by simpa [hvisited, hsome] using hsome'
        -- both find the net in the same state, so both list it or neither does
        obtain rfl : s = s' := by
          have hold := honly'.old
          rw [h.alike.nets, honly.old] at hold
          exact Option.some.inj hold
        rw [haffected, haffected', h.affected]
  · obtain ⟨-, rfl⟩ | ⟨n, s, cost, update, -, hupdate, honly, haffected⟩ :=
      (visit_eq_ok.1 hx).effect
    · exact h.marked
    · -- the visited net has just been marked, the others were and are left alone
      intro n' hn'
      by_cases heq : n = n'
      · subst heq
        exact ⟨_, honly.new, hupdate⟩
      · have hold : n' ∈ e.affected := by
          rw [haffected] at hn'
          split at hn'
          · exact hn'
          · simpa [Ne.symm heq] using hn'
        obtain ⟨s', hs', hmark⟩ := h.marked n' hold
        exact ⟨s', (honly.nets _ (mt NetId.toNat_inj.1 heq)).trans hs', hmark⟩

end

/-- **Costing a listed net reads no leftovers,** since the net is marked. -/
theorem recost [CostScalar α] {delta : α} (h : InStep e e') (hn : n ∈ e.affected) :
    Checked.Agree (fun x y => (InStep x.1 y.1 ∧ x.1.affected = e.affected) ∧ y.2 = x.2)
      (Engine.recost (e, delta) n) (Engine.recost (e', delta) n) := by
  obtain ⟨s, hs, hmark⟩ := h.marked n hn
  have hproposed : e'.geometry.proposedOf n = e.geometry.proposedOf n := by
    rw [GeometryTable.proposedOf, GeometryTable.proposedOf, entry, entry,
      h.alike.proposed n.toNat s hs hmark]
  have hform : e'.form = e.form := h.alike.form
  have hcheck : ∀ g, e'.checkProposed n g = e.checkProposed n g := by
    intro g
    rw [checkProposed, checkProposed, h.alike.interior]
  rw [Engine.recost, Engine.recost]
  rw [hproposed, hform, h.alike.factors, h.alike.stateOf]
  refine .bind_same fun g _ => .bind_same fun cost _ => .bind_same fun old _ => ?_
  rw [hcheck]
  refine .bind_same fun _ _ => .ok ⟨⟨⟨?_, h.affected, ?_⟩, rfl⟩, rfl⟩
  · exact h.alike.updateNet n (f := fun s => { s with proposed := some cost }) fun _ => rfl
  · intro n' hn'
    obtain ⟨s', hs', hmark'⟩ := h.marked n' hn'
    refine ⟨_, getElem?_modify_eq_some.2 ⟨s', hs', rfl⟩, ?_⟩
    split
    · exact hmark'
    · exact hmark'

end InStep

namespace Alike

variable {e e' : Engine δ α} {nl : Netlist} {n : NetId} [CostScalar α] [DelayScalar δ α] {m : Move}
  {timing : Option (TimingInputs δ)}

/-- **An evaluation reads no leftovers.** -/
theorem evaluate (h : Alike e e') : Checked.Agree
    (fun x y => (Alike x.1 y.1 ∧ y.1.affected = x.1.affected) ∧ y.2 = x.2)
    (e.evaluate nl m timing) (e'.evaluate nl m timing) := by
  rw [Engine.evaluate, Engine.evaluate, h.pending]
  refine .bind_same fun _ _ => ?_
  have hstart : InStep { e with pending := true, affected := [] }
      { e' with pending := true, affected := [] } := by
    refine ⟨⟨?_, h.size, h.proposed, h.timings⟩, rfl, by simp⟩
    rw [h.same]
  have hvisits : Checked.Agree (fun x y => InStep x.1 y.1 ∧ y.2 = x.2)
      (m.relocations.foldlM (visitBlock nl m timing)
        ({ e with pending := true, affected := [] }, zero))
      (m.relocations.foldlM (visitBlock nl m timing)
        ({ e' with pending := true, affected := [] }, zero)) := by
    refine .foldlM ⟨hstart, rfl⟩ ?_
    rintro ⟨x, c⟩ ⟨y, c'⟩ r - ⟨hxy, rfl⟩
    rw [visitBlock, visitBlock]
    refine .bind_same fun block _ => .bind_same fun _ _ => .foldlM ⟨hxy, rfl⟩ ?_
    rintro ⟨x, c⟩ ⟨y, c'⟩ p - ⟨hxy, rfl⟩
    exact hxy.visit r p
  refine hvisits.bind ?_
  rintro ⟨x, c⟩ ⟨y, c'⟩ ⟨hxy, rfl⟩
  dsimp only at hxy ⊢
  rw [hxy.affected]
  have hcosts : Checked.Agree (fun u v => (InStep u.1 v.1 ∧ u.1.affected = x.affected) ∧ v.2 = u.2)
      (x.affected.foldlM Engine.recost (x, zero)) (x.affected.foldlM Engine.recost (y, zero)) := by
    refine .foldlM ⟨⟨hxy, rfl⟩, rfl⟩ ?_
    rintro ⟨u, d⟩ ⟨v, d'⟩ n hn ⟨⟨huv, hlisted⟩, rfl⟩
    dsimp only at hlisted huv
    -- costing does not change the list, so the next net is listed still
    rw [← hlisted]
    exact huv.recost (hlisted ▸ hn)
  refine hcosts.bind ?_
  rintro ⟨u, d⟩ ⟨v, d'⟩ ⟨⟨huv, -⟩, rfl⟩
  dsimp only
  rw [huv.affected, huv.alike.timings.touched_eq]
  exact .ok ⟨⟨huv.alike, huv.affected⟩, rfl⟩

/-! ### Timing again -/

theorem recomputeTiming {inputs : TimingInputs δ} (h : Alike e e') : Checked.Agree
    (fun x y => Alike x.1 y.1 ∧ y.2 = x.2) (e.recomputeTiming nl inputs)
    (e'.recomputeTiming nl inputs) := by
  rw [Engine.recomputeTiming, Engine.recomputeTiming, h.pending]
  refine .bind_same fun _ _ => h.timings.recompute.bind ?_
  rintro ⟨t, total⟩ ⟨t', total'⟩ ⟨ht, rfl⟩
  refine .ok ⟨⟨?_, h.size, h.proposed, ht⟩, rfl⟩
  rw [h.same]

theorem checkTotals (h : Alike e e') (totals : Totals α) : Checked.Agree
    (fun x y => Alike x.engine y.engine ∧ y = { x with engine := y.engine })
    (e.checkTotals nl totals timing) (e'.checkTotals nl totals timing) := by
  rw [Engine.checkTotals, Engine.checkTotals, h.recomputeBoxCost]
  refine .bind_same fun box _ => ?_
  rw [h.isClose]
  split
  · refine .ok ⟨h, ?_⟩
    rw [drifted, drifted, h.options]
  · cases timing with
    | none => exact .ok ⟨h, rfl⟩
    | some inputs =>
      refine h.recomputeTiming.bind ?_
      rintro ⟨x, total⟩ ⟨y, total'⟩ ⟨hxy, rfl⟩
      dsimp only at hxy ⊢
      rw [hxy.isClose]
      split
      · refine .ok ⟨hxy, ?_⟩
        rw [drifted, drifted, hxy.options]
      · exact .ok ⟨hxy, rfl⟩

end Alike

end Engine

end WireCost
