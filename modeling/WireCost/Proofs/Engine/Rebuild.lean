import WireCost.Engine.Rebuild
import WireCost.Proofs.Geometry.Table
import WireCost.Proofs.Netlist.Consistent

/-! # What a rebuild does

* **`Engine.RebuiltNet`** — what a rebuild does to one net.
* **`Engine.rebuildNet_eq_ok`** — one step of a rebuild.
* **`Engine.Rebuilding`** — what a rebuild has done to the engine after some of the nets.
* **`Engine.rebuilding_of_rebuild`**, **`Engine.exists_rebuild`** — every rebuild that succeeds does
  that to all nets, and it succeeds when every net that is not ignored can be scanned and costed.
* **`Engine.unmeasured`** — the engine that a new one is rebuilt from.
* **`Engine.ofFactors_eq_ok`**, **`Engine.setup_ofFactors`** — when there is a new engine, and what
  it takes over. -/

namespace WireCost.Engine

variable {δ α : Type} {e e' : Engine δ α} {nl : Netlist} {n : NetId} {withLength : Bool}
  {totals totals' : RebuildTotals α}

/-- The ids of all nets are positions in the table. -/
theorem toNat_lt_of_mem_netIds (h : n ∈ e.netIds) : n.toNat < e.nets.size := by
  obtain ⟨i, hi, rfl⟩ := List.mem_map.1 h
  rw [List.mem_range] at hi
  have hle : (NetId.ofNat i).toNat ≤ i := Nat.mod_le i Word.size32
  omega

theorem lt_of_mem_map_netIds {i : Nat} (h : i ∈ e.netIds.map NetId.toNat) : i < e.nets.size := by
  obtain ⟨n, hn, rfl⟩ := List.mem_map.1 h
  exact toNat_lt_of_mem_netIds hn

theorem mem_netIds (hroom : e.nets.size ≤ Word.size32) : n ∈ e.netIds ↔ n.toNat < e.nets.size := by
  refine ⟨toNat_lt_of_mem_netIds, fun h => List.mem_map.2 ⟨n.toNat, List.mem_range.2 h, ?_⟩⟩
  rw [← NetId.toNat_inj]
  exact NetId.toNat_ofNat (by omega)

variable [CostScalar α]

/-! ## One net -/

/-- **What a rebuild does to one net:** an ignored net costs nothing and keeps its geometry, another
one is scanned and costed. -/
inductive RebuiltNet (e : Engine δ α) (nl : Netlist) (n : NetId) (s : NetState α)
    (old? new? : Option Geometry) : NetState α → Prop where
  | ignored {net : Net} (hnet : nl.nets[n.toNat]? = some net) (hignored : net.ignored = true)
      (hkept : new? = old?) : RebuiltNet e nl n s old? new? { s with ignored := true, cost := zero }
  | counted {net : Net} {g : Geometry} {cost : α} (hnet : nl.nets[n.toNat]? = some net)
      (hcounted : net.ignored = false) (hscan : e.geometry.scan nl e.interior n = .ok g)
      (hcost : g.cost e.form e.factors = .ok cost) (hnew : new? = some g) :
      RebuiltNet e nl n s old? new? { s with ignored := false, cost }

/-- The wirelength so far, if it is asked for. -/
def lengthAfter (e : Engine δ α) (withLength : Bool) (length : α) (g : Geometry) : Checked α :=
  if withLength then (g.wirelength e.form).map (length + ·) else .ok length

/-- One step of a rebuild. -/
theorem rebuildNet_eq_ok : rebuildNet nl withLength (e, totals) n = .ok (e', totals') ↔
    ∃ net, nl.nets[n.toNat]? = some net ∧
      if net.ignored then
        e.updateNet n (fun s => { s with ignored := true, cost := zero }) = e' ∧ totals = totals'
      else n.toNat < e.geometry.committed.size ∧ ∃ g cost length,
        e.geometry.scan nl e.interior n = .ok g ∧ g.cost e.form e.factors = .ok cost ∧
          e.lengthAfter withLength totals.wirelength g = .ok length ∧
          { e with geometry := e.geometry.withCommitted n g }.updateNet n
            (fun s => { s with ignored := false, cost }) = e' ∧
          (⟨totals.cost + cost, length⟩ : RebuildTotals α) = totals' := by
  simp only [rebuildNet, Netlist.net, Checked.bind_eq_ok, entry_eq_ok]
  refine exists_congr fun net => and_congr_right fun _ => ?_
  split
  · rw [Except.ok.injEq, Prod.mk.injEq]
  · -- the geometry that is costed is the one just loaded
    have hload : ∀ g, n.toNat < e.geometry.committed.size →
        (e.geometry.withCommitted n g).committedOf n = .ok g := by
      intro g hlt
      exact entry_of_some (Array.getElem?_setIfInBounds_self_of_lt hlt)
    simp only [← Checked.ite_bind, Checked.bind_eq_ok, GeometryTable.load_eq_ok, Except.ok.injEq,
      Prod.mk.injEq]
    constructor
    · rintro ⟨_, ⟨hlt, g, hg, rfl⟩, cost, hcost, length, hlength, he, ht⟩
      rw [GeometryTable.committedCost, hload g hlt] at hcost
      rw [GeometryTable.committedLength, hload g hlt] at hlength
      exact ⟨hlt, g, cost, length, hg, hcost, hlength, he, ht⟩
    · rintro ⟨hlt, g, cost, length, hg, hcost, hlength, he, ht⟩
      refine ⟨_, ⟨hlt, g, hg, rfl⟩, cost, ?_, length, ?_, he, ht⟩
      · rw [GeometryTable.committedCost, hload g hlt]
        exact hcost
      · rw [GeometryTable.committedLength, hload g hlt]
        exact hlength

/-! ## All nets -/

/-- In the middle of a rebuild, the nets in `done` are rebuilt, and nothing has happened to the
others. -/
structure Rebuilding (e : Engine δ α) (nl : Netlist) (done : List NetId) (e' : Engine δ α) :
    Prop where
  rest : e' = { e with
    geometry := { e.geometry with committed := e'.geometry.committed }
    nets := e'.nets }
  size : e'.geometry.committed.size = e.geometry.committed.size
  netsSize : e'.nets.size = e.nets.size
  rebuilt : ∀ n ∈ done, ∀ s, e.nets[n.toNat]? = some s → ∃ s', e'.nets[n.toNat]? = some s' ∧
    RebuiltNet e nl n s e.geometry.committed[n.toNat]? e'.geometry.committed[n.toNat]? s'
  geometries : ∀ i : Nat, i ∉ done.map NetId.toNat →
    e'.geometry.committed[i]? = e.geometry.committed[i]?
  nets : ∀ i : Nat, i ∉ done.map NetId.toNat → e'.nets[i]? = e.nets[i]?

theorem Rebuilding.start (e : Engine δ α) (nl : Netlist) : Rebuilding e nl [] e :=
  ⟨rfl, rfl, rfl, by simp, fun _ _ => rfl, fun _ _ => rfl⟩

/-- A rebuild is no matter of the pending move. -/
theorem Rebuilding.pending {done : List NetId} (h : Rebuilding e nl done e') :
    e'.pending = e.pending := (congrArg Engine.pending h.rest :)

/-- A rebuild leaves all connections as they are. -/
theorem Rebuilding.connections {done : List NetId} (h : Rebuilding e nl done e') :
    e'.connections = e.connections := (congrArg Engine.connections h.rest :)

/-- A rebuild does not look at costs and marks. -/
theorem Rebuilding.state {e₁ : Engine δ α} {done : List NetId} (h : Rebuilding e nl done e₁)
    {s : NetState α} (hs : e.nets[n.toNat]? = some s) :
    ∃ s₁, e₁.nets[n.toNat]? = some s₁ ∧ s₁.proposed = s.proposed ∧ s₁.update = s.update := by
  by_cases hn : n ∈ done
  · obtain ⟨s₁, hs₁, hrebuilt⟩ := h.rebuilt n hn s hs
    refine ⟨s₁, hs₁, ?_⟩
    cases hrebuilt <;> exact ⟨rfl, rfl⟩
  · exact ⟨s, (h.nets _ (mt NetId.toNat_mem_map.1 hn)).trans hs, rfl, rfl⟩

/-- **One more net** is rebuilt. -/
theorem Rebuilding.rebuildNet {e₁ : Engine δ α} {done : List NetId} (h : Rebuilding e nl done e₁)
    (hstep : rebuildNet nl withLength (e₁, totals) n = .ok (e', totals')) :
    Rebuilding e nl (done ++ [n]) e' := by
  have hmem : ∀ i : Nat, i ∉ (done ++ [n]).map NetId.toNat →
      n.toNat ≠ i ∧ i ∉ done.map NetId.toNat := by
    intro i hi
    rwa [NetId.mem_map_concat, not_or] at hi
  have hother : ∀ n' ∈ done ++ [n], n ≠ n' → n' ∈ done := by
    intro n' hn' hne
    simpa [Ne.symm hne] using hn'
  obtain ⟨net, hnet, hstep⟩ := rebuildNet_eq_ok.1 hstep
  split at hstep
  · -- an ignored net: its geometry stays, and its state is overwritten
    rename_i hignored
    obtain ⟨rfl, -⟩ := hstep
    refine ⟨?_, h.size, Array.size_modify.trans h.netsSize, ?_, ?_, ?_⟩
    · rw [h.rest]
      rfl
    · intro n' hn' s hs
      by_cases hown : n = n'
      · subst hown
        obtain ⟨s₁, hs₁, hproposed, hupdate⟩ := h.state hs
        refine ⟨_, getElem?_modify_eq_some.2 ⟨s₁, hs₁, if_pos rfl⟩, ?_⟩
        rw [hproposed, hupdate]
        refine .ignored hnet hignored ?_
        -- it may have been rebuilt before, but then it was ignored as well
        by_cases hdone : n ∈ done
        · obtain ⟨s₂, -, hrebuilt⟩ := h.rebuilt n hdone s hs
          cases hrebuilt with
          | ignored _ _ hkept => exact hkept
          | counted hnet' hcounted =>
            obtain rfl := Option.some.inj (hnet.symm.trans hnet')
            rw [hignored] at hcounted
            cases hcounted
        · exact h.geometries _ (mt NetId.toNat_mem_map.1 hdone)
      · obtain ⟨s', hs', hrebuilt⟩ := h.rebuilt n' (hother n' hn' hown) s hs
        refine ⟨s', ?_, hrebuilt⟩
        rw [updateNet, Array.getElem?_modify, if_neg (mt NetId.toNat_inj.1 hown), hs']
    · exact fun i hi => h.geometries i (hmem i hi).2
    · intro i hi
      rw [updateNet, Array.getElem?_modify, if_neg (hmem i hi).1, h.nets i (hmem i hi).2]
  · -- a net that counts: both its geometry and its state are overwritten
    rename_i hcounted
    obtain ⟨hlt, g, cost, length, hscan, hcost, -, rfl, -⟩ := hstep
    have hlater : ∀ i : Nat, n.toNat ≠ i →
        (e₁.geometry.withCommitted n g).committed[i]? = e₁.geometry.committed[i]? := fun i hi =>
      Array.getElem?_setIfInBounds_ne hi
    refine ⟨?_, Array.size_setIfInBounds.trans h.size, Array.size_modify.trans h.netsSize, ?_, ?_,
      ?_⟩
    · rw [h.rest]
      rfl
    · intro n' hn' s hs
      by_cases hown : n = n'
      · subst hown
        obtain ⟨s₁, hs₁, hproposed, hupdate⟩ := h.state hs
        refine ⟨_, getElem?_modify_eq_some.2 ⟨s₁, hs₁, if_pos rfl⟩, ?_⟩
        rw [hproposed, hupdate]
        -- a scan reads nothing that the rebuild has changed so far
        rw [h.rest] at hscan hcost
        exact .counted hnet (by simpa using hcounted) hscan hcost
          (Array.getElem?_setIfInBounds_self_of_lt hlt)
      · obtain ⟨s', hs', hrebuilt⟩ := h.rebuilt n' (hother n' hn' hown) s hs
        have hne : n.toNat ≠ n'.toNat := mt NetId.toNat_inj.1 hown
        refine ⟨s', ?_, ?_⟩
        · rw [updateNet, Array.getElem?_modify, if_neg hne, hs']
        · exact (hlater n'.toNat hne).symm ▸ hrebuilt
    · intro i hi
      exact (hlater i (hmem i hi).1).trans (h.geometries i (hmem i hi).2)
    · intro i hi
      rw [updateNet, Array.getElem?_modify, if_neg (hmem i hi).1, h.nets i (hmem i hi).2]

/-- A rebuild is a loop over all nets. -/
theorem rebuild_eq_ok {report : CostReport α × List (Finding α)} :
    e.rebuild nl withLength = .ok (e', report) ↔
      e.pending = false ∧ nl.nets.size = e.nets.size ∧ ∃ totals,
        e.netIds.foldlM (Engine.rebuildNet nl withLength) (e, ⟨zero, zero⟩) = .ok (e', totals) ∧
        (if withLength then (⟨totals.cost, some totals.wirelength⟩, [.wirelength totals.wirelength])
          else (⟨totals.cost, none⟩, [])) = report := by
  simp only [rebuild, Checked.bind_eq_ok, require_eq_ok, Bool.not_eq_true]
  constructor
  · rintro ⟨-, hidle, -, hsize, ⟨e₁, totals⟩, hloop, h⟩
    refine ⟨hidle, hsize, totals, ?_⟩
    split at h
    · rename_i hlength
      cases h
      exact ⟨hloop, if_pos hlength⟩
    · rename_i hlength
      cases h
      exact ⟨hloop, if_neg hlength⟩
  · rintro ⟨hidle, hsize, totals, hloop, rfl⟩
    refine ⟨(), hidle, (), hsize, (e', totals), hloop, ?_⟩
    split <;> rfl

/-- **A rebuild that succeeds** rebuilds every net. -/
theorem rebuilding_of_rebuild {report : CostReport α × List (Finding α)}
    (h : e.rebuild nl withLength = .ok (e', report)) : Rebuilding e nl e.netIds e' := by
  obtain ⟨-, -, totals, hloop, -⟩ := rebuild_eq_ok.1 h
  refine Checked.foldlM_induct (c := (e', totals)) (fun done s => Rebuilding e nl done s.1)
    (.start e nl) ?_ hloop
  intro done n _ s s' _ hs hstep
  exact hs.rebuildNet hstep

/-- **What a rebuild of all nets does to each of them,** by its position. -/
theorem Rebuilding.net (h : Rebuilding e nl e.netIds e') (hroom : e.nets.size ≤ Word.size32)
    {i : Nat} (hi : i < e.nets.size) : ∃ n s s', n.toNat = i ∧ e.nets[i]? = some s ∧
      e'.nets[i]? = some s' ∧
      RebuiltNet e nl n s e.geometry.committed[i]? e'.geometry.committed[i]? s' := by
  obtain ⟨n, rfl⟩ : ∃ n : NetId, n.toNat = i :=
    ⟨_, NetId.toNat_ofNat (Nat.lt_of_lt_of_le hi hroom)⟩
  have hs := Array.getElem?_eq_getElem hi
  obtain ⟨s', hs', hrebuilt⟩ := h.rebuilt _ ((mem_netIds hroom).2 hi) _ hs
  exact ⟨n, _, s', rfl, hs, hs', hrebuilt⟩

/-- **A rebuild succeeds** when every net that is not ignored can be scanned and costed, and has a
wirelength if that is asked for. -/
theorem exists_rebuild (hidle : e.pending = false) (hsize : nl.nets.size = e.nets.size)
    (hroom : e.geometry.committed.size = e.nets.size)
    (hnets : ∀ n ∈ e.netIds, ∀ net, nl.nets[n.toNat]? = some net → net.ignored = false →
      ∃ g cost, e.geometry.scan nl e.interior n = .ok g ∧ g.cost e.form e.factors = .ok cost ∧
        (withLength = true → ∃ length : α, g.wirelength e.form = .ok length)) :
    ∃ e' report, e.rebuild nl withLength = .ok (e', report) := by
  have hloop := Checked.foldlM_progress (f := Engine.rebuildNet nl withLength) (l := e.netIds)
    (b := (e, ⟨zero, zero⟩)) (fun done s => Rebuilding e nl done s.1) (.start e nl) (by
      rintro done n rest ⟨e₁, totals⟩ hl hs
      dsimp only at hs
      have hmem : n ∈ e.netIds := by simp [hl]
      have hlt := toNat_lt_of_mem_netIds hmem
      have hnet := Array.getElem?_eq_getElem (hsize.symm ▸ hlt : n.toNat < nl.nets.size)
      have hstep : ∃ s', rebuildNet nl withLength (e₁, totals) n = .ok s' := by
        by_cases hignored : nl.nets[n.toNat].ignored = true
        · refine ⟨(e₁.updateNet n fun s => { s with ignored := true, cost := zero }, totals), ?_⟩
          rw [rebuildNet_eq_ok]
          exact ⟨_, hnet, by rw [if_pos hignored]; exact ⟨rfl, rfl⟩⟩
        · obtain ⟨g, cost, hscan, hcost, hlength⟩ :=
            hnets n hmem _ hnet (by simpa using hignored)
          have hin : n.toNat < e₁.geometry.committed.size := by
            rw [hs.size, hroom]
            exact hlt
          obtain ⟨length, hafter⟩ :
              ∃ length, e.lengthAfter withLength totals.wirelength g = .ok length := by
            rw [lengthAfter]
            split
            · rename_i hasked
              obtain ⟨length, hlength⟩ := hlength hasked
              exact ⟨totals.wirelength + length, by rw [hlength]; rfl⟩
            · exact ⟨totals.wirelength, rfl⟩
          refine ⟨({ e₁ with geometry := e₁.geometry.withCommitted n g }.updateNet n
            fun s => { s with ignored := false, cost }, ⟨totals.cost + cost, length⟩), ?_⟩
          rw [rebuildNet_eq_ok]
          refine ⟨_, hnet, ?_⟩
          rw [if_neg hignored]
          refine ⟨hin, g, cost, length, ?_, ?_, ?_, rfl, rfl⟩
          · rw [hs.rest]
            exact hscan
          · rw [hs.rest]
            exact hcost
          · rw [hs.rest]
            exact hafter
      obtain ⟨⟨e₂, totals₂⟩, hstep⟩ := hstep
      exact ⟨_, hstep, hs.rebuildNet hstep⟩)
  obtain ⟨⟨e', totals⟩, hloop, -⟩ := hloop
  exact ⟨e', _, rebuild_eq_ok.2 ⟨hidle, hsize, totals, hloop, rfl⟩⟩

/-! ## New engines -/

section

variable [DelayScalar δ α] {interior : Interior} {factors : ChannelFactors α} {form : BoxForm}
  {options : EngineOptions α} {device : Device} {settings : CostSettings α}
  {findings : List (Finding α)}

/-- An engine that has not looked at any net: nothing is measured, touched or pending. -/
def unmeasured (interior : Interior) (factors : ChannelFactors α) (form : BoxForm)
    (options : EngineOptions α) (nl : Netlist) : Engine δ α where
  interior := interior
  factors := factors
  options := options
  geometry := {
    form
    layers := interior.layers
    committed := Array.replicate nl.nets.size (.blank form interior.layers)
    proposed := Array.replicate nl.nets.size (.blank form interior.layers) }
  nets := Array.replicate nl.nets.size ⟨zero, none, .untouched, false⟩
  affected := []
  connections := .blank nl
  pending := false

@[simp] theorem size_nets_unmeasured :
    (unmeasured (δ := δ) interior factors form options nl).nets.size = nl.nets.size :=
  Array.size_replicate

@[simp] theorem size_committed_unmeasured :
    (unmeasured (δ := δ) interior factors form options nl).geometry.committed.size =
      nl.nets.size :=
  Array.size_replicate

/-- **A blank engine** can be built if its geometries fit the table. -/
theorem blank_eq_ok : blank interior factors form options nl = .ok e ↔
    GeometryTable.requireRoom form nl.nets.size interior.layers = .ok () ∧
      unmeasured interior factors form options nl = e := by
  have hblank : (Array.range nl.nets.size).map
      (fun _ => Geometry.blank form interior.layers) =
        Array.replicate nl.nets.size (Geometry.blank form interior.layers) := by
    simp [Array.map_const']
  simp only [blank, GeometryTable.blank, hblank, Checked.bind_eq_ok, Except.ok.injEq]
  constructor
  · rintro ⟨_, ⟨_, hroom, rfl⟩, rfl⟩
    exact ⟨hroom, rfl⟩
  · rintro ⟨hroom, rfl⟩
    exact ⟨_, ⟨(), hroom, rfl⟩, rfl⟩

/-- **A new engine with given factors** is rebuilt from one that has not looked at any net, if its
geometries fit the table. -/
theorem ofFactors_eq_ok : ofFactors interior factors form options nl = .ok e ↔
    GeometryTable.requireRoom form nl.nets.size interior.layers = .ok () ∧
      ∃ report, (unmeasured interior factors form options nl).rebuild nl false =
        .ok (e, report) := by
  simp only [ofFactors, Checked.bind_eq_ok, blank_eq_ok]
  constructor
  · rintro ⟨_, ⟨hroom, rfl⟩, ⟨e₁, report⟩, hrebuild, h⟩
    cases h
    exact ⟨hroom, report, hrebuild⟩
  · rintro ⟨hroom, report, hrebuild⟩
    exact ⟨_, ⟨hroom, rfl⟩, (e, report), hrebuild, rfl⟩

/-- The first rebuild looks at every net. -/
theorem rebuilding_ofFactors (h : ofFactors interior factors form options nl = .ok e) :
    Rebuilding (unmeasured interior factors form options nl) nl
      (unmeasured (δ := δ) interior factors form options nl).netIds e := by
  obtain ⟨-, report, hrebuild⟩ := ofFactors_eq_ok.1 h
  exact rebuilding_of_rebuild hrebuild

/-- **A new engine has the setup that it is given.** -/
theorem setup_ofFactors (h : ofFactors interior factors form options nl = .ok e) :
    e.interior = interior ∧ e.factors = factors ∧ e.form = form ∧ e.options = options := by
  have hrest := (rebuilding_ofFactors h).rest
  refine ⟨congrArg Engine.interior hrest, congrArg Engine.factors hrest, ?_,
    congrArg Engine.options hrest⟩
  rw [hrest]
  rfl

/-- In a new engine no move is pending. -/
theorem idle_ofFactors (h : ofFactors interior factors form options nl = .ok e) :
    e.pending = false :=
  (rebuilding_ofFactors h).pending

/-- There is room for the geometries of a new engine. -/
theorem room_ofFactors (h : ofFactors interior factors form options nl = .ok e) :
    GeometryTable.requireRoom e.form nl.nets.size e.interior.layers = .ok () := by
  obtain ⟨hinterior, -, hform, -⟩ := setup_ofFactors h
  rw [hform, hinterior, (ofFactors_eq_ok.1 h).1]

/-- **A new engine** takes the interior and the factors from the device. -/
theorem ofDevice_eq_ok : ofDevice nl device settings = .ok (.ok (e, findings)) ↔
    ∃ interior factors bare, Interior.ofDevice device = .ok (.ok interior) ∧
      ChannelFactors.ofDevice device settings.exponent = .ok (factors, bare) ∧
      ofFactors interior factors (formFor settings.form interior.layers)
        ⟨settings.smallNet, settings.tolerance⟩ nl = .ok e ∧
      bare.map .bareSpan ++ [.boxForm (formFor settings.form interior.layers) nl.nets.size
        interior.layers] = findings := by
  simp only [ofDevice, Checked.bind_eq_ok]
  constructor
  · rintro ⟨interior?, hinterior, h⟩
    cases interior? with
    | error defect => cases h
    | ok interior =>
      simp only [Checked.bind_eq_ok] at h
      obtain ⟨⟨factors, bare⟩, hfactors, e₁, he, h⟩ := h
      cases h
      exact ⟨interior, factors, bare, hinterior, hfactors, he, rfl⟩
  · rintro ⟨interior, factors, bare, hinterior, hfactors, he, rfl⟩
    refine ⟨_, hinterior, ?_⟩
    simp only [hfactors, Checked.ok_bind, he]

/-- **No engine is built** for a device that is refused. -/
theorem ofDevice_eq_defect {defect : DeviceDefect} :
    (ofDevice nl device settings : Checked (Except DeviceDefect (Engine δ α × List (Finding α)))) =
      .ok (.error defect) ↔ Interior.ofDevice device = .ok (.error defect) := by
  simp only [ofDevice, Checked.bind_eq_ok]
  constructor
  · rintro ⟨interior?, hinterior, h⟩
    cases interior? with
    | error defect' =>
      cases h
      exact hinterior
    | ok interior =>
      obtain ⟨⟨factors, bare⟩, -, h⟩ := Checked.bind_eq_ok.1 h
      obtain ⟨e, -, h⟩ := Checked.bind_eq_ok.1 h
      cases h
  · exact fun hinterior => ⟨_, hinterior, rfl⟩

end

end WireCost.Engine
