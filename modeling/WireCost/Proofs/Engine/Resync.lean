import WireCost.Proofs.Engine.Drift
import WireCost.Proofs.Engine.Make

/-! # Rebuilds of engines that are out of step

Between two moves blocks may be placed elsewhere, and nets ignored or not, without the engine being
told of it. A rebuild looks at all pins again, and takes over nothing that it held before.

* **`Engine.pinValue`** — what the pins of a net give now; **`Engine.pinSum`** — the sum over nets.
* **`Engine.report_of_rebuild`** — a rebuild reports such sums over the nets that count.
* **`Engine.Rebuilding.nets_eq`** — two engines of the same make that are rebuilt end up alike;
  **`Engine.Rebuilding.again`** — a second rebuild changes nothing.
* **`Engine.Rebuilding.same_totals`** — the total of a rebuild, the total of the committed costs and
  the total of the committed boxes are the same number.
* **`Engine.Suits.exists_rebuild_iff`** — an engine can be rebuilt exactly when a new one can be
  built.
* **`Engine.rebuild_resyncs`** — all of this for an engine that any operations have led to. -/

namespace WireCost

/-- A net that counts: it is not ignored. -/
def Netlist.isCounted (nl : Netlist) (n : NetId) : Bool := !(nl.nets[n.toNat]?.any (·.ignored))

theorem Netlist.isCounted_eq {nl : Netlist} {n : NetId} {net : Net}
    (hnet : nl.nets[n.toNat]? = some net) : nl.isCounted n = !net.ignored := by
  rw [isCounted, hnet, Option.any_some]

namespace Engine

variable {δ α : Type} [CostScalar α] {e e' e₁ e₂ : Engine δ α} {nl : Netlist} {n : NetId}
  {net : Net} {g : Geometry} {withLength : Bool}

/-! ## What the pins give -/

/-- What the pins of a net give now, by some measure of geometries. -/
def pinValue (e : Engine δ α) (nl : Netlist) (measure : Geometry → Checked α) (n : NetId) : α :=
  match e.geometry.scan nl e.interior n >>= measure with
  | .ok value => value
  | .error _ => zero

/-- What the pins of the nets that count give, added up from zero. -/
def pinSum (e : Engine δ α) (nl : Netlist) (measure : Geometry → Checked α) (ns : List NetId) : α :=
  ((ns.filter nl.isCounted).map (e.pinValue nl measure)).foldl (· + ·) zero

variable {measure : Geometry → Checked α}

theorem pinValue_eq {value : α} (hscan : e.geometry.scan nl e.interior n = .ok g)
    (hvalue : measure g = .ok value) : e.pinValue nl measure n = value := by
  rw [pinValue, hscan, Checked.ok_bind, hvalue]

/-- An ignored net adds nothing. -/
theorem pinSum_append_ignored {ns : List NetId} (hn : nl.isCounted n = false) :
    e.pinSum nl measure (ns ++ [n]) = e.pinSum nl measure ns := by
  simp [pinSum, hn]

/-- Another net adds what its pins give. -/
theorem pinSum_append_counted {ns : List NetId} (hn : nl.isCounted n = true) :
    e.pinSum nl measure (ns ++ [n]) = e.pinSum nl measure ns + e.pinValue nl measure n := by
  simp [pinSum, hn]

/-- Engines with the same setup get the same from the pins. -/
theorem SameSetup.pinValue_eq (h : SameSetup e e') : e'.pinValue nl = e.pinValue nl := by
  funext measure n
  simp only [pinValue, h.scan]

/-- What the pins of a net cost now. -/
def pinCost (e : Engine δ α) (nl : Netlist) : NetId → α :=
  e.pinValue nl (·.cost e.form e.factors)

theorem SameSetup.pinCost_eq (h : SameSetup e e') : e'.pinCost nl = e.pinCost nl := by
  simp only [pinCost, h.pinValue_eq, h.cost]

/-- What the pins of all nets cost now. -/
def pinTotal (e : Engine δ α) (nl : Netlist) : α := e.pinSum nl (·.cost e.form e.factors) e.netIds

/-- The wirelength that the pins of all nets give now. -/
def pinWirelength (e : Engine δ α) (nl : Netlist) : α := e.pinSum nl (·.wirelength e.form) e.netIds

/-- The report of a rebuild, with its findings. -/
def pinReport (e : Engine δ α) (nl : Netlist) (withLength : Bool) :
    CostReport α × List (Finding α) :=
  if withLength then
    (⟨e.pinTotal nl, some (e.pinWirelength nl)⟩, [.wirelength (e.pinWirelength nl)])
  else (⟨e.pinTotal nl, none⟩, [])

/-- Engines of the same make report the same. -/
theorem SameMake.pinReport_eq (h : SameMake e e') : e'.pinReport nl = e.pinReport nl := by
  funext withLength
  simp only [pinReport, pinTotal, pinWirelength, pinSum, h.netIds, h.setup.pinValue_eq,
    h.setup.form, h.setup.factors]

/-- In the middle of a rebuild, the totals are what the pins of the nets in `done` give. -/
structure Totalled (e : Engine δ α) (nl : Netlist) (withLength : Bool) (done : List NetId)
    (totals : RebuildTotals α) : Prop where
  cost : totals.cost = e.pinSum nl (·.cost e.form e.factors) done
  wirelength : withLength = true → totals.wirelength = e.pinSum nl (·.wirelength e.form) done

/-- **One more net** is added to the totals if it counts. -/
theorem Totalled.rebuildNet {done : List NetId} {totals totals' : RebuildTotals α}
    (h : Totalled e nl withLength done totals) (hsetup : SameSetup e e₁)
    (hstep : rebuildNet nl withLength (e₁, totals) n = .ok (e₂, totals')) :
    Totalled e nl withLength (done ++ [n]) totals' := by
  obtain ⟨net, hnet, hstep⟩ := rebuildNet_eq_ok.1 hstep
  have hcounted := Netlist.isCounted_eq hnet
  split at hstep
  · rename_i hignored
    obtain ⟨-, rfl⟩ := hstep
    rw [hignored] at hcounted
    refine ⟨?_, fun hasked => ?_⟩
    · rw [pinSum_append_ignored hcounted, h.cost]
    · rw [pinSum_append_ignored hcounted, h.wirelength hasked]
  · rename_i hignored
    obtain ⟨-, g, cost, length, hscan, hcost, hlength, -, rfl⟩ := hstep
    rw [hsetup.scan] at hscan
    rw [hsetup.cost] at hcost
    rw [Bool.not_eq_true] at hignored
    rw [hignored] at hcounted
    refine ⟨?_, fun hasked => ?_⟩
    · rw [pinSum_append_counted hcounted, pinValue_eq hscan hcost, h.cost]
    · rw [lengthAfter, if_pos hasked, Checked.map_eq_ok, hsetup.form] at hlength
      obtain ⟨l, hl, rfl⟩ := hlength
      rw [pinSum_append_counted hcounted, pinValue_eq hscan hl, h.wirelength hasked]

/-- **A rebuild reports** what the pins of the nets that count give. -/
theorem report_of_rebuild {report : CostReport α × List (Finding α)}
    (h : e.rebuild nl withLength = .ok (e', report)) : report = e.pinReport nl withLength := by
  obtain ⟨-, -, totals, hloop, rfl⟩ := rebuild_eq_ok.1 h
  have htotals : Rebuilding e nl e.netIds e' ∧ Totalled e nl withLength e.netIds totals := by
    refine Checked.foldlM_induct (c := (e', totals))
      (fun done s => Rebuilding e nl done s.1 ∧ Totalled e nl withLength done s.2)
      ⟨.start e nl, rfl, fun _ => rfl⟩ ?_ hloop
    intro done n _ s s' _ ⟨hrebuilding, htotals⟩ hstep
    exact ⟨hrebuilding.rebuildNet hstep, htotals.rebuildNet hrebuilding.setup hstep⟩
  obtain ⟨-, hcost, hlength⟩ := htotals
  rw [pinReport, pinTotal, ← hcost]
  split
  · rename_i hasked
    rw [pinWirelength, ← hlength hasked]
  · rfl

/-! ## Two rebuilds -/

/-- **Two nets that are rebuilt from the same pins** end up alike, up to geometries that are
kept. -/
theorem RebuiltNet.agree {s s' t t' : NetState α} {old? new? old?' new?' : Option Geometry}
    (h : RebuiltNet e nl n s old? new? t) (h' : RebuiltNet e' nl n s' old?' new?' t')
    (hsetup : SameSetup e e') (hproposed : s'.proposed = s.proposed)
    (hupdate : s'.update = s.update) :
    t' = t ∧ if t.ignored then new? = old? ∧ new?' = old?' else new?' = new? := by
  cases h with
  | ignored hnet hignored hkept =>
    cases h' with
    | ignored _ _ hkept' => exact ⟨by rw [hproposed, hupdate], hkept, hkept'⟩
    | counted hnet' hcounted =>
      obtain rfl := Option.some.inj (hnet.symm.trans hnet')
      rw [hignored] at hcounted
      cases hcounted
  | counted hnet hcounted hscan hcost hnew =>
    cases h' with
    | ignored hnet' hignored =>
      obtain rfl := Option.some.inj (hnet.symm.trans hnet')
      rw [hignored] at hcounted
      cases hcounted
    | counted _ _ hscan' hcost' hnew' =>
      obtain rfl := Except.ok.inj (hscan'.symm.trans ((hsetup.scan nl n).trans hscan))
      obtain rfl := Except.ok.inj (hcost'.symm.trans ((hsetup.cost _).trans hcost))
      exact ⟨by rw [hproposed, hupdate], hnew'.trans hnew.symm⟩

/-- **Each net of two engines of the same make that are rebuilt** ends up in the same state. If it
counts then it has the same geometry in both, and otherwise each engine keeps its own. -/
theorem Rebuilding.agree_net (h : Rebuilding e nl e.netIds e₁)
    (h' : Rebuilding e' nl e'.netIds e₂) (hmake : SameMake e e') (hsuits : e.Suits nl)
    (hsuits' : e'.Suits nl) {i : Nat} {t : NetState α} (ht : e₁.nets[i]? = some t) :
    e₂.nets[i]? = some t ∧
      if t.ignored then e₁.geometry.committed[i]? = e.geometry.committed[i]? ∧
        e₂.geometry.committed[i]? = e'.geometry.committed[i]?
      else e₂.geometry.committed[i]? = e₁.geometry.committed[i]? := by
  have hlt : i < e.nets.size := h.netsSize ▸ (Array.getElem?_eq_some_iff.1 ht).1
  obtain ⟨n, s, t₁, rfl, hs, ht₁, hrebuilt⟩ := h.net hsuits.room hlt
  obtain ⟨n', s', t₂, hn, hs', ht₂, hrebuilt'⟩ := h'.net hsuits'.room (hmake.size ▸ hlt)
  obtain rfl := NetId.toNat_inj.1 hn
  obtain rfl := Option.some.inj (ht.symm.trans ht₁)
  -- between two moves no net is marked
  obtain ⟨hproposed, hupdate⟩ := (hsuits.orderly.idle hsuits.idle).nets _ s hs
  obtain ⟨hproposed', hupdate'⟩ := (hsuits'.orderly.idle hsuits'.idle).nets _ s' hs'
  obtain ⟨rfl, hgeometry⟩ := hrebuilt.agree hrebuilt' hmake.setup
    (hproposed'.trans hproposed.symm) (hupdate'.trans hupdate.symm)
  exact ⟨ht₂, hgeometry⟩

/-- **Two engines of the same make that are rebuilt** have the same states of all nets. -/
theorem Rebuilding.nets_eq (h : Rebuilding e nl e.netIds e₁) (h' : Rebuilding e' nl e'.netIds e₂)
    (hmake : SameMake e e') (hsuits : e.Suits nl) (hsuits' : e'.Suits nl) :
    e₂.nets = e₁.nets := by
  refine Array.ext_getElem? fun i => ?_
  cases ht : e₁.nets[i]? with
  | some t => exact (h.agree_net h' hmake hsuits hsuits' ht).1
  | none =>
    rw [Array.getElem?_eq_none_iff] at ht ⊢
    rwa [h'.netsSize, hmake.size, ← h.netsSize]

/-- They have the same geometries of all nets, if they had the same ones where nothing is loaded. -/
theorem Rebuilding.committed_eq (h : Rebuilding e nl e.netIds e₁)
    (h' : Rebuilding e' nl e'.netIds e₂) (hmake : SameMake e e') (hsuits : e.Suits nl)
    (hsuits' : e'.Suits nl)
    (hbefore : ∀ i : Nat, (∀ t, e₁.nets[i]? = some t → t.ignored = true) →
      e'.geometry.committed[i]? = e.geometry.committed[i]?) :
    e₂.geometry.committed = e₁.geometry.committed := by
  refine Array.ext_getElem? fun i => ?_
  cases ht : e₁.nets[i]? with
  | some t =>
    have hgeometry := (h.agree_net h' hmake hsuits hsuits' ht).2
    split at hgeometry
    · rename_i hignored
      rw [hgeometry.2, hgeometry.1, hbefore i fun t' ht' => ?_]
      obtain rfl := Option.some.inj (ht.symm.trans ht')
      exact hignored
    · exact hgeometry
  | none =>
    -- there is no such net
    have hout := Array.getElem?_eq_none_iff.1 ht
    rw [h.netsSize] at hout
    rw [h.geometries i fun hi => Nat.not_lt.2 hout (lt_of_mem_map_netIds hi),
      h'.geometries i fun hi => Nat.not_lt.2 hout (hmake.size ▸ lt_of_mem_map_netIds hi),
      hbefore i fun t ht' => ?_]
    rw [ht] at ht'
    cases ht'

/-- Both record whether a net is ignored, and they have the same geometry of it if it counts. -/
theorem Rebuilding.same_net (h : Rebuilding e nl e.netIds e₁) (h' : Rebuilding e' nl e'.netIds e₂)
    (hmake : SameMake e e') (hsuits : e.Suits nl) (hsuits' : e'.Suits nl)
    (hnet : nl.nets[n.toNat]? = some net) :
    ∃ s, e₁.nets[n.toNat]? = some s ∧ s.ignored = net.ignored ∧
      (net.ignored = false → ∃ g, e₁.geometry.committedOf n = .ok g ∧
        e₂.geometry.committedOf n = .ok g) := by
  have htracks := hsuits.tracks h
  have hlt : n.toNat < e₁.nets.size := htracks.size ▸ (Array.getElem?_eq_some_iff.1 hnet).1
  have hs := Array.getElem?_eq_getElem hlt
  have hflag := htracks.ignored n net _ hnet hs
  refine ⟨_, hs, hflag, fun hcounted => ?_⟩
  obtain ⟨g, cost, hexact⟩ := htracks.exact n net hnet hcounted
  have hsame := (h.agree_net h' hmake hsuits hsuits' hs).2
  rw [hflag, hcounted, if_neg Bool.false_ne_true] at hsame
  exact ⟨g, hexact.committedOf, entry_of_some (hsame.trans hexact.geometry)⟩

/-- **The outcome of a rebuild** is determined. -/
theorem Rebuilding.unique (h : Rebuilding e nl e.netIds e₁) (h' : Rebuilding e nl e.netIds e₂)
    (hsuits : e.Suits nl) : e₂ = e₁ := by
  rw [h'.rest, h.nets_eq h' (.refl e) hsuits hsuits,
    h.committed_eq h' (.refl e) hsuits hsuits fun _ _ => rfl]
  exact h.rest.symm

/-- **A second rebuild** changes nothing. -/
theorem Rebuilding.again (h : Rebuilding e nl e.netIds e₁) (h' : Rebuilding e₁ nl e₁.netIds e₂)
    (hsuits : e.Suits nl) : e₂ = e₁ := by
  have hsuits' := hsuits.rebuilding h
  rw [h'.rest, h.nets_eq h' h.sameMake hsuits hsuits',
    h.committed_eq h' h.sameMake hsuits hsuits' fun i hi => ?_]
  -- the first rebuild has kept the geometries of the nets that are ignored
  by_cases hlt : i < e.nets.size
  · obtain ⟨n, s, t, rfl, -, ht, hrebuilt⟩ := h.net hsuits.room hlt
    have hignored := hi t ht
    cases hrebuilt with
    | ignored _ _ hkept => exact hkept
    | counted => cases hignored
  · exact h.geometries i fun hmem => hlt (lt_of_mem_map_netIds hmem)

/-! ## Costs after a rebuild -/

/-- **What a net costs after a rebuild:** an ignored net nothing, and another one what its pins
give. -/
theorem Rebuilding.costs (h : Rebuilding e nl e.netIds e') (hroom : e.nets.size ≤ Word.size32)
    (hn : n ∈ e.netIds) : e'.nets[n.toNat]?.any (·.ignored) = !nl.isCounted n ∧
      e'.costBefore n = if nl.isCounted n then e.pinCost nl n else zero := by
  obtain ⟨n', s, s', hsame, -, hs', hrebuilt⟩ := h.net hroom (toNat_lt_of_mem_netIds hn)
  obtain rfl := NetId.toNat_inj.1 hsame
  rw [costBefore_eq hs', hs', Option.any_some]
  cases hrebuilt with
  | ignored hnet hignored => simp [Netlist.isCounted_eq hnet, hignored]
  | counted hnet hcounted hscan hcost =>
    simp [Netlist.isCounted_eq hnet, hcounted, pinCost, pinValue_eq hscan hcost]

/-- **Adding up the costs of the committed boxes** after a rebuild. -/
theorem Rebuilding.recomputeBoxCost (h : Rebuilding e nl e.netIds e') (hsuits : e.Suits nl) :
    e'.recomputeBoxCost = .ok (sum ((e.netIds.filter nl.isCounted).map (e.pinCost nl))) := by
  have hcounted : e'.countedNets = e.netIds.filter nl.isCounted := by
    rw [countedNets, h.sameMake.netIds]
    refine List.filter_congr fun n hn => ?_
    rw [(h.costs hsuits.room hn).1, Bool.not_not]
  rw [Engine.recomputeBoxCost, (hsuits.tracks h).mapM_committedCost, Checked.ok_bind, hcounted]
  congr 2
  refine List.map_congr_left fun n hn => ?_
  obtain ⟨hmem, hcounted⟩ := List.mem_filter.1 hn
  rw [(h.costs hsuits.room hmem).2, if_pos hcounted]

/-- **The three totals after a rebuild are the same number:** what it reports, the sum of all
committed costs, and the sum of the costs of the committed boxes. They start from other zeros, and
the ignored nets are terms of the second one only. -/
theorem Rebuilding.same_totals {R : α → α → Prop} (hR : SameNumber R)
    (hzero : ∀ a : α, R (a + zero) a) (hempty : R zero (sum []))
    (h : Rebuilding e nl e.netIds e') (hroom : e.nets.size ≤ Word.size32) :
    R (e.pinTotal nl) e'.boxCost ∧
      R (e.pinTotal nl) (sum ((e.netIds.filter nl.isCounted).map (e.pinCost nl))) := by
  refine ⟨hR.equivalence.symm ?_, ?_⟩
  · rw [boxCost, costs_eq (h.netsSize ▸ hroom), h.sameMake.netIds]
    refine hR.foldl_filter hzero (fun n hn hcounted => ?_) (fun n hn hignored => ?_)
      (hR.equivalence.symm hempty)
    · rw [(h.costs hroom hn).2, if_pos hcounted, pinCost]
    · rw [(h.costs hroom hn).2, hignored, if_neg Bool.false_ne_true]
  · exact hR.foldl (List.forall₂_same.2 fun a _ => hR.refl a) hempty

/-! ## Rebuilds that succeed -/

/-- A net that can be scanned has a wirelength. -/
theorem Equipped.exists_wirelength (h : e.Equipped) (hnl : nl.Consistent)
    (hnet : nl.nets[n.toNat]? = some net) (hscan : e.geometry.scan nl e.interior n = .ok g) :
    ∃ length : α, g.wirelength e.form = .ok length := by
  obtain ⟨driver, hdriver⟩ := exists_driver_of_scan hnet hscan
  have hlength := hnl.length_sinks_lt hnet (by rw [hdriver]; rfl)
  have hroom : (net.bagAt driver (nl.siteMap e.interior)).sinks.card + 1 < Word.size32 := by
    rwa [Net.card_bagAt]
  rw [GeometryTable.scan, h.layers] at hscan
  obtain ⟨hsited, -, hmeasures⟩ :=
    (Netlist.scan_eq_ok hlength hnet hdriver h.inside.layers).1 hscan
  exact hmeasures.exists_wirelength h.inside.layers hsited.encloses h.cover.columnsWord
    h.cover.rowsWord hroom

/-- **Where one engine was rebuilt,** every other one of the same make can be. -/
theorem Rebuilding.exists_rebuild (h : Rebuilding e nl e.netIds e₁) (hmake : SameMake e e')
    (hsuits : e.Suits nl) (hsuits' : e'.Suits nl) (withLength : Bool) :
    ∃ e₂ report, e'.rebuild nl withLength = .ok (e₂, report) := by
  refine Engine.exists_rebuild hsuits'.idle hsuits'.size.symm hsuits'.orderly.committedSize ?_
  intro n hn net hnet hcounted
  rw [hmake.netIds] at hn
  obtain ⟨n', s, s', hsame, -, -, hrebuilt⟩ := h.net hsuits.room (toNat_lt_of_mem_netIds hn)
  obtain rfl := NetId.toNat_inj.1 hsame
  cases hrebuilt with
  | ignored hnet' hignored =>
    obtain rfl := Option.some.inj (hnet.symm.trans hnet')
    rw [hcounted] at hignored
    cases hignored
  | counted _ _ hscan hcost =>
    obtain ⟨length, hlength⟩ := hsuits.equipped.exists_wirelength hsuits.consistent hnet hscan
    exact ⟨_, _, (hmake.setup.scan nl n').trans hscan, (hmake.setup.cost _).trans hcost,
      fun _ => ⟨length, by rw [hmake.setup.form, hlength]⟩⟩

/-- **With or without the wirelength,** a rebuild leaves the same engine behind. -/
theorem Rebuilding.rebuild_eq (h : Rebuilding e nl e.netIds e') (hsuits : e.Suits nl)
    (withLength : Bool) : e.rebuild nl withLength = .ok (e', e.pinReport nl withLength) := by
  obtain ⟨e₁, report, hrebuild⟩ := h.exists_rebuild (.refl e) hsuits hsuits withLength
  rw [hrebuild, report_of_rebuild hrebuild, h.unique (rebuilding_of_rebuild hrebuild) hsuits]

/-- **A rebuilt engine** that is rebuilt once more stays as it is, and reports the same. -/
theorem Rebuilding.rebuild_again (h : Rebuilding e nl e.netIds e') (hsuits : e.Suits nl)
    (withLength : Bool) : e'.rebuild nl withLength = .ok (e', e.pinReport nl withLength) := by
  obtain ⟨e₁, report, hrebuild⟩ :=
    h.exists_rebuild h.sameMake hsuits (hsuits.rebuilding h) withLength
  rw [hrebuild, report_of_rebuild hrebuild, h.sameMake.pinReport_eq,
    h.again (rebuilding_of_rebuild hrebuild) hsuits]

/-- **An engine can be rebuilt** exactly when a new one can be built. -/
theorem Suits.exists_rebuild_iff [DelayScalar δ α] (h : e.Suits nl)
    (hroom : GeometryTable.requireRoom e.form e.nets.size e.interior.layers = .ok ())
    (withLength : Bool) : (∃ e' report, e.rebuild nl withLength = .ok (e', report)) ↔
      ∃ fresh : Engine δ α, ofFactors e.interior e.factors e.form e.options nl = .ok fresh := by
  have hmake := h.equipped.sameMake_unmeasured h.size
  constructor
  · rintro ⟨e', report, hrebuild⟩
    obtain ⟨fresh, report', hfresh⟩ :=
      (rebuilding_of_rebuild hrebuild).exists_rebuild hmake h h.unmeasured false
    exact ⟨fresh, ofFactors_eq_ok.2 ⟨h.size ▸ hroom, report', hfresh⟩⟩
  · rintro ⟨fresh, hfresh⟩
    exact (rebuilding_ofFactors hfresh).exists_rebuild hmake.symm h.unmeasured h withLength

/-! ## After any operations -/

variable [DelayScalar δ α] {start fresh : Engine δ α} {before : Netlist} {device : Device}
  {settings : CostSettings α} {found findings : List (Finding α)} {ops : List (Operation δ α)}

/-- **What operations lead to** from a new engine suits every built netlist with as many nets, as
long as no move is pending. -/
theorem suits_of_runAll (hstart : ofDevice before device settings = .ok (.ok (start, found)))
    (hops : start.runAll ops = .ok e) (hidle : e.pending = false) (hnl : nl.Built)
    (hsize : nl.nets.size = before.nets.size) : e.Suits nl ∧ e.MadeFor device settings := by
  obtain ⟨horderly, hmake⟩ := (orderly_ofDevice hstart).runAll hops
  exact ⟨⟨horderly, hidle, (equipped_ofDevice hstart).of_same hmake.setup, hnl.consistent,
    hmake.size.trans ((size_ofDevice hstart).trans hsize.symm)⟩,
    (MadeFor.ofDevice hstart).of_same hmake⟩

/-- **A new engine can be built** for a netlist with drivers, whose blocks are on layers of the
device, if the places of its pins are words. -/
theorem Suits.exists_fresh (h : e.Suits nl) (hmade : e.MadeFor device settings)
    (hdriven : ∀ net ∈ nl.nets, net.ignored = false → net.driver.isSome)
    (hblocks : ∀ b ∈ nl.blocks, e.interior.HasLayer b.location.layer.toInt) (hwords : nl.InWords)
    (hpins : nl.pins.size < Word.size31) :
    ∃ fresh : Engine δ α, ofFactors e.interior e.factors e.form e.options nl = .ok fresh :=
  exists_ofFactors h.equipped.inside h.equipped.cover
    (h.consistent.measurable h.equipped.inside hblocks hdriven hwords hpins)
    (h.size ▸ hmade.room) e.options

/-- **A rebuild brings every engine back in step.** The engine may have been led to by any
operations, on any netlists, and in the meantime blocks may have been placed elsewhere and nets
ignored or not: as long as no move is pending, all that matters is the netlist that it is given now,
which is built and has as many nets as the one that it was made for. The engine can be rebuilt, with
or without the wirelength, exactly when a new one can be built for that netlist. This is so when all
nets that are not ignored have drivers, the blocks are on layers of the device, and the places of
pins are words. After that it has the same states of all nets as the new one, and of those that are
not ignored the same geometries. With the wirelength or without it, the same total is reported, and
a second rebuild changes nothing and reports the same. The total of the committed costs, and that of
the committed boxes, are those of the new engine, and they are the number that was reported, where
adding zero makes no difference. -/
theorem rebuild_resyncs (hstart : ofDevice before device settings = .ok (.ok (start, found)))
    (hops : start.runAll ops = .ok e) (hidle : e.pending = false) (hnl : nl.Built)
    (hsize : nl.nets.size = before.nets.size) :
    (∀ withLength, (∃ e' report, e.rebuild nl withLength = .ok (e', report)) ↔
      ∃ (fresh : Engine δ α) (findings : List (Finding α)),
        ofDevice nl device settings = .ok (.ok (fresh, findings))) ∧
    ((∀ net ∈ nl.nets, net.ignored = false → net.driver.isSome) →
      (∀ b ∈ nl.blocks,
        0 ≤ b.location.layer.toInt ∧ b.location.layer.toInt < device.layers.toNat) →
      nl.InWords → nl.pins.size < Word.size31 →
      ∃ (fresh : Engine δ α) (findings : List (Finding α)),
        ofDevice nl device settings = .ok (.ok (fresh, findings))) ∧
    ∀ (fresh : Engine δ α) (findings : List (Finding α)),
      ofDevice nl device settings = .ok (.ok (fresh, findings)) →
      ∃ e' total length cost,
        e.rebuild nl false = .ok (e', ⟨total, none⟩, []) ∧
        e.rebuild nl true = .ok (e', ⟨total, some length⟩, [.wirelength length]) ∧
        e'.rebuild nl false = .ok (e', ⟨total, none⟩, []) ∧
        e'.rebuild nl true = .ok (e', ⟨total, some length⟩, [.wirelength length]) ∧
        fresh.rebuild nl false = .ok (fresh, ⟨total, none⟩, []) ∧
        e'.nets = fresh.nets ∧
        (∀ (n : NetId) (net : Net), nl.nets[n.toNat]? = some net →
          ∃ s, e'.nets[n.toNat]? = some s ∧ s.ignored = net.ignored ∧
            (net.ignored = false → ∃ g, e'.geometry.committedOf n = .ok g ∧
              fresh.geometry.committedOf n = .ok g)) ∧
        e'.boxCost = fresh.boxCost ∧
        e'.recomputeBoxCost = .ok cost ∧ fresh.recomputeBoxCost = .ok cost ∧
        ∀ R : α → α → Prop, SameNumber R → (∀ a, R (a + zero) a) → R zero (sum []) →
          R total e'.boxCost ∧ R total cost := by
  obtain ⟨hsuits, hmade⟩ := suits_of_runAll hstart hops hidle hnl hsize
  have hnew : (∃ (fresh : Engine δ α) (findings : List (Finding α)),
      ofDevice nl device settings = .ok (.ok (fresh, findings))) ↔
        ∃ fresh : Engine δ α, ofFactors e.interior e.factors e.form e.options nl = .ok fresh :=
    exists_congr fun _ => hmade.ofDevice_iff
  refine ⟨fun withLength => ?_, fun hdriven hblocks hwords hpins => ?_,
    fun fresh findings hfresh => ?_⟩
  · rw [hnew]
    exact hsuits.exists_rebuild_iff hmade.room withLength
  · obtain ⟨-, -, -, -, -, hlayers⟩ := Interior.ofDevice_eq_ok.1 hmade.interior
    rw [hnew]
    refine hsuits.exists_fresh hmade hdriven (fun b hb => ?_) hwords hpins
    rw [Interior.HasLayer, ← hlayers]
    exact hblocks b hb
  -- the engine and a blank one of the same make are both rebuilt
  · have hfactors := hmade.ofDevice_iff.1 ⟨findings, hfresh⟩
    have hblank := rebuilding_ofFactors hfactors
    have hmake := hsuits.equipped.sameMake_unmeasured hsuits.size
    obtain ⟨e', report, hrebuild⟩ :=
      (hsuits.exists_rebuild_iff hmade.room false).2 ⟨fresh, hfactors⟩
    have hdone := rebuilding_of_rebuild hrebuild
    have hnets := hblank.nets_eq hdone hmake.symm hsuits.unmeasured hsuits
    refine ⟨e', e.pinTotal nl, e.pinWirelength nl,
      sum ((e.netIds.filter nl.isCounted).map (e.pinCost nl)),
      hdone.rebuild_eq hsuits false, hdone.rebuild_eq hsuits true, hdone.rebuild_again hsuits false,
      hdone.rebuild_again hsuits true, ?_, hnets, fun n net hnet => ?_, ?_,
      hdone.recomputeBoxCost hsuits, ?_, fun R hR hzero hempty => ?_⟩
    · rw [hblank.rebuild_again hsuits.unmeasured false, hmake.pinReport_eq]
      rfl
    · exact hdone.same_net hblank hmake hsuits hsuits.unmeasured hnet
    · rw [boxCost, boxCost, hnets]
    · rw [hblank.recomputeBoxCost hsuits.unmeasured, hmake.netIds, hmake.setup.pinCost_eq]
    · exact hdone.same_totals hR hzero hempty hsuits.room

end Engine

/-! ## A block that strayed -/

namespace Sample

/-- The netlist after the second block was placed elsewhere. -/
def strayed : Netlist := result (netlist.place ⟨1⟩ ⟨1, 2, 0, 0⟩) (by decide +kernel)

theorem built_strayed : strayed.Built := built_netlist.place (eq_ok_result (by decide +kernel))

/-- The engine after a move that was taken back. -/
def returned : Engine Rat Rat :=
  result (engine.runAll [.evaluate placed move none, .rollback]) (by decide +kernel)

/-- The new engine for the netlist whose second block strayed. -/
def straight : Engine Rat Rat := (result (start strayed settings) (by decide +kernel)).1

end Sample

namespace Engine

/-- The small engine was not told that the second block strayed. A rebuild finds the total of a new
engine, which is not the one that it had. -/
theorem rebuild_resyncs_small : ∃ e' total,
    Sample.returned.rebuild Sample.strayed false = .ok (e', ⟨total, none⟩, []) ∧
    e'.nets = Sample.straight.nets ∧ total = Sample.straight.boxCost ∧
    total ≠ Sample.returned.boxCost := by
  obtain ⟨findings, hstart⟩ := Sample.engine_eq
  have hreturned : Sample.engine.runAll [.evaluate Sample.placed Sample.move none, .rollback] =
      .ok Sample.returned := Sample.eq_ok_result (by decide +kernel)
  have hstraight : Sample.start Sample.strayed Sample.settings = .ok (Sample.straight, _) :=
    Sample.eq_ok_result (by decide +kernel)
  obtain ⟨-, -, hresync⟩ := rebuild_resyncs hstart hreturned (by decide +kernel)
    Sample.built_strayed (by decide +kernel)
  obtain ⟨e', total, length, cost, hrebuild, -, -, -, -, hnets, -, hboxCost, -, -, htotals⟩ :=
    hresync Sample.straight _ (Sample.ofDevice_of_start hstraight)
  obtain ⟨htotal, -⟩ := htotals Eq .eq (fun a => Rat.add_zero a) rfl
  rw [hboxCost] at htotal
  have hother : Sample.straight.boxCost ≠ Sample.returned.boxCost := by decide +kernel
  exact ⟨e', total, hrebuild, hnets, htotal, htotal ▸ hother⟩

end Engine

end WireCost
