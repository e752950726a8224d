import WireCost.Proofs.Engine.Progress
import WireCost.Proofs.Engine.Search
import WireCost.Proofs.Engine.Transaction

/-! # Incremental geometries are exact

* **`Engine.Settled.exists_fresh`** — at every placement of a search a new engine can be built, and
  it is committed at the same geometries and costs.
* **`Engine.Tracks.exists_verify`** — a verification finds nothing.
* **`Move.OnDevice`** — a move that lands on the device can be evaluated.
* **`Engine.search_exact`** — all of this along every run of the search. -/

namespace WireCost

variable {δ α : Type}

/-- **A move lands on the device:** every block goes to one of its layers, and the columns and rows
of its pins are words. -/
structure Move.OnDevice (m : Move) (nl : Netlist) (i : Interior) : Prop where
  layer : ∀ r ∈ m.relocations, i.HasLayer r.target.layer.toInt
  column : ∀ r ∈ m.relocations, ∀ pin ∈ nl.pins, pin.block = r.block →
    Word.IsInt32 (r.target.x.toInt + pin.offset.dx.toInt)
  row : ∀ r ∈ m.relocations, ∀ pin ∈ nl.pins, pin.block = r.block →
    Word.IsInt32 (r.target.y.toInt + pin.offset.dy.toInt)

namespace Engine

variable [CostScalar α] {e e' : Engine δ α} {nl placed : Netlist} {n : NetId} {net : Net}
  {driver : PinId} {m : Move} {device : Device} {settings settings' : CostSettings α}
  {g g' : Geometry} {cost cost' : α}

/-! ## Exact engines are all alike -/

/-- Exact geometries and costs depend on the placement and on what is fixed for an engine. -/
theorem Exact.unique (h : e.Exact nl n g cost) (h' : e'.Exact nl n g' cost')
    (hsetup : SameSetup e e') : g' = g ∧ cost' = cost := by
  have hscan := hsetup.scan nl n
  have hg : g' = g := Except.ok.inj (h'.scan.symm.trans (hscan.trans h.scan))
  have hcosts := h'.costs
  rw [hg, hsetup.cost] at hcosts
  exact ⟨hg, Except.ok.inj (hcosts.symm.trans h.costs)⟩

/-- Settled engines for one device have the same setup, if their settings say the same about it. -/
theorem Settled.setup (h : Settled device settings nl e) (h' : Settled device settings' nl e')
    (hexponent : settings'.exponent = settings.exponent)
    (hchoice : settings'.form = settings.form) : SameSetup e e' := by
  have hinterior : e'.interior = e.interior :=
    Except.ok.inj (Except.ok.inj (h'.interior.symm.trans h.interior))
  obtain ⟨bare, hfactors⟩ := h.factors
  obtain ⟨bare', hfactors'⟩ := h'.factors
  rw [hexponent] at hfactors'
  refine ⟨hinterior, congrArg Prod.fst (Except.ok.inj (hfactors'.symm.trans hfactors)), ?_, ?_⟩
  · rw [h'.form, h.form, hchoice, hinterior]
  · rw [h'.tracks.layers, h.tracks.layers, hinterior]

/-- A net that counts has a committed cost. -/
theorem Exact.netCost (h : e.Exact nl n g cost) : e.netCost n = .ok cost := by
  obtain ⟨s, hs, rfl⟩ := h.state
  exact netCost_of_some hs

theorem Exact.committedOf (h : e.Exact nl n g cost) : e.geometry.committedOf n = .ok g :=
  entry_of_some h.geometry

theorem Exact.committedCost (h : e.Exact nl n g cost) : e.committedCost n = .ok cost :=
  committedCost_of_committedOf h.committedOf h.costs

/-! ## New engines -/

section

variable [DelayScalar δ α]

/-- **A new engine can be built** at a placement that another engine tracks. -/
theorem Tracks.exists_ofFactors (h : e.Tracks nl)
    (hroom : GeometryTable.requireRoom e.form nl.nets.size e.interior.layers = .ok ())
    (options : EngineOptions α) : ∃ fresh : Engine δ α,
      ofFactors e.interior e.factors e.form options nl = .ok fresh := by
  have hrebuild : ∃ fresh report, (unmeasured e.interior e.factors e.form options nl :
      Engine δ α).rebuild nl false = .ok (fresh, report) := by
    -- the tracking engine holds a geometry and a cost for every net that a rebuild looks at
    refine exists_rebuild rfl (by simp) (by simp) ?_
    intro n _ net hnet hcounted
    obtain ⟨g, cost, hexact⟩ := h.exact n net hnet hcounted
    have hscan := hexact.scan
    rw [GeometryTable.scan, h.layers] at hscan
    exact ⟨g, cost, hscan, hexact.costs, fun hasked => absurd hasked Bool.false_ne_true⟩
  obtain ⟨fresh, report, hrebuild⟩ := hrebuild
  exact ⟨fresh, ofFactors_eq_ok.2 ⟨hroom, report, hrebuild⟩⟩

/-- **A new engine can be built** at every placement of a search. -/
theorem Settled.exists_fresh (h : Settled device settings nl e) :
    ∃ (fresh : Engine δ α) (findings : List (Finding α)),
      ofDevice nl device settings = .ok (.ok (fresh, findings)) := by
  obtain ⟨bare, hfactors⟩ := h.factors
  obtain ⟨fresh, hnew⟩ :=
    h.tracks.exists_ofFactors h.room ⟨settings.smallNet, settings.tolerance⟩
  rw [h.form] at hnew
  exact ⟨fresh, _, ofDevice_eq_ok.2 ⟨e.interior, e.factors, bare, h.interior, hfactors, hnew, rfl⟩⟩

end

/-! ## Recomputations and verifications -/

/-- A net that the engine does not ignore is committed exactly. -/
theorem Tracks.exists_exact (h : e.Tracks nl) (hn : n ∈ e.countedNets) :
    ∃ g cost, e.Exact nl n g cost := by
  obtain ⟨hmem, hflag⟩ := List.mem_filter.1 hn
  have hs := Array.getElem?_eq_getElem (toNat_lt_of_mem_netIds hmem)
  rw [hs] at hflag
  obtain ⟨net, driver, hc⟩ := h.counts_of_state hs (by simpa using hflag)
  exact h.exact n net hc.entry hc.counted

/-- **The committed boxes cost** what is committed. -/
theorem Tracks.mapM_committedCost (h : e.Tracks nl) :
    e.countedNets.mapM e.committedCost = .ok (e.countedNets.map e.costBefore) := by
  rw [Checked.mapM_eq_ok, List.map_map]
  refine List.map_congr_left fun n hn => ?_
  obtain ⟨g, cost, hexact⟩ := h.exists_exact hn
  obtain ⟨s, hs, hcost⟩ := hexact.state
  rw [Function.comp_apply, hexact.committedCost, costBefore_eq hs, hcost]

/-- A net that the engine does not ignore agrees with its pins, as long as its cost equals
itself. -/
theorem Tracks.agrees (h : e.Tracks nl) (hn : n ∈ e.countedNets)
    (hcosts : ∀ n cost, e.netCost n = .ok cost → (cost == cost) = true) : e.Agrees nl n := by
  obtain ⟨g, cost, hexact⟩ := h.exists_exact hn
  obtain ⟨s, hs, rfl⟩ := hexact.state
  exact ⟨g, s, s.cost, hexact.scan, hexact.committedOf, entry_of_some hs, hexact.committedCost,
    hcosts n _ hexact.netCost⟩

/-- **A verification succeeds,** and it finds nothing as long as the committed costs equal
themselves. -/
theorem Tracks.exists_verify (h : e.Tracks nl) (hidle : e.pending = false)
    (hcommitted : e.geometry.committed.size = e.nets.size)
    (hproposed : e.geometry.proposed.size = e.nets.size) : ∃ e' found,
      e.verify nl = .ok (e', found) ∧
        ((∀ n cost, e.netCost n = .ok cost → (cost == cost) = true) → found = none) := by
  obtain ⟨e', found, hverify⟩ := Engine.exists_verify hcommitted hproposed fun n hn => by
    obtain ⟨g, cost, hexact⟩ := h.exists_exact hn
    exact ⟨g, cost, hexact.scan, hexact.costs⟩
  exact ⟨e', found, hverify, fun hcosts =>
    (finds_of_verify hidle hverify).eq_none_iff.2 fun n hn => h.agrees hn hcosts⟩

/-- **A verification finds nothing** along a search, as long as the committed costs equal
themselves. -/
theorem Settled.verify (h : Settled device settings nl e)
    (hcosts : ∀ n cost, e.netCost n = .ok cost → (cost == cost) = true) :
    ∃ e', e.verify nl = .ok (e', none) := by
  obtain ⟨e', found, hverify, hfound⟩ := h.tracks.exists_verify h.idle
    h.orderly.committedSize h.orderly.proposedSize
  exact ⟨e', hfound hcosts ▸ hverify⟩

/-! ## Moves on the device -/

/-- **A move that lands on the device** gives all pins of the nets that it touches a site. -/
theorem Tracks.lands (h : e.Tracks nl) (hm : m.Fits nl) (happly : nl.apply m = .ok placed)
    (hon : m.OnDevice nl e.interior)
    (hsinks : ∀ net ∈ nl.nets, net.sinks.length < Word.size31) : e.Lands nl placed m := by
  refine ⟨fun n net driver hc _ p hp => ?_, fun n net driver hc _ => ?_⟩
  · obtain ⟨-, -, hsited, -⟩ := h.measures hc
    have hold := hsited p hp
    obtain ⟨pin, hpin, -⟩ := (Netlist.mem_pins_iff h.consistent hc).1 hp
    suffices hsite : ∃ s, placed.siteIn e.interior p = .ok s by
      obtain ⟨s, hs⟩ := hsite
      rw [Netlist.siteMap_of_siteIn hs, hs]
    -- a pin moves with its block or stays at its site
    by_cases hblock : ∃ r ∈ m.relocations, pin.block = r.block
    · obtain ⟨r, hr, hblock⟩ := hblock
      obtain ⟨hsource, htarget⟩ :=
        Netlist.siteIn_apply_of_mem e.interior hm happly hr hpin hblock
      have hmem : pin ∈ nl.pins := Array.mem_of_getElem? hpin
      -- the interior has lines, since the pin had a site before
      rw [hsource, Interior.siteAt, Checked.bind_eq_ok] at hold
      obtain ⟨_, -, hclip⟩ := hold
      obtain ⟨⟨-, hcolumns, hrows⟩, -⟩ := Interior.clip_eq_ok.1 hclip
      rw [htarget]
      exact Interior.exists_siteAt hcolumns hrows (hon.layer r hr)
        (hon.column r hr pin hmem hblock) (hon.row r hr pin hmem hblock)
    · have hstay := Netlist.siteIn_apply_of_ne e.interior hm happly hpin
        fun r hr heq => hblock ⟨r, hr, heq⟩
      exact ⟨_, hstay.trans hold⟩
  · exact hsinks net (Array.mem_of_getElem? hc.entry)

variable [DelayScalar δ α]

/-- Without timing inputs there is nothing to be timed. -/
theorem timeVisits_none (e : Engine δ α) (nl : Netlist) (m : Move) :
    e.timeVisits nl m none = .ok (e.connections, zero) := by
  have hstep : ∀ (visits : List (Relocation × PinId)) (state : ConnectionTable δ α × α),
      visits.foldlM (e.timeVisit nl m none) state = .ok state := by
    intro visits
    induction visits with
    | nil => exact fun _ => rfl
    | cons v visits ih =>
      intro state
      have hv : e.timeVisit nl m none state v = .ok state := by
        rw [timeVisit]
        split
        · rfl
        · rename_i n hnet
          obtain ⟨⟨pin, hpin, -⟩, -⟩ := visitedNet_eq_some.1 hnet
          rw [Netlist.pin, entry_of_some hpin]
          rfl
      rw [List.foldlM_cons, hv, Checked.ok_bind, ih]
  exact hstep _ _

/-! ## Runs -/

/-- **Incremental geometries are exact over whole runs of the search.** Every move that fits can be
applied and reverted. Once it is evaluated, what is proposed for each touched net is what a scan of
its pins at their new sites gives, and the move can be committed or rolled back. Between two moves a
new engine for the current placement can be built, it has the same committed geometries and costs
for all nets that are not ignored, and a verification finds nothing unless a cost differs from
itself. A move that lands on the device can be evaluated, as far as its connections can be timed and
the sinks of each net can be counted by a signed word. -/
theorem search_exact (h : Search device settings nl e) :
    (∀ m, m.Fits nl → ∃ placed, nl.apply m = .ok placed ∧ placed.revert m = .ok nl ∧
      (∀ timing e' o, e.evaluate placed m timing = .ok (e', o) →
        (∀ n ∈ e'.affected, ∃ g, e'.geometry.scan placed e'.interior n = .ok g ∧
          e'.geometry.proposedOf n = .ok g) ∧
        (∃ e'', e'.commit = .ok e'') ∧ ∃ e'', e'.rollback = .ok e'') ∧
      (m.OnDevice nl e.interior → (∀ net ∈ nl.nets, net.sinks.length < Word.size31) →
        ∀ timing timed, e.timeVisits placed m timing = .ok timed →
          ∃ e' o, e.evaluate placed m timing = .ok (e', o))) ∧
    (∃ (fresh : Engine δ α) (findings : List (Finding α)),
      ofDevice nl device settings = .ok (.ok (fresh, findings)) ∧
      ∀ n net, nl.nets[n.toNat]? = some net → net.ignored = false → ∃ g cost,
        e.geometry.committedOf n = .ok g ∧ fresh.geometry.committedOf n = .ok g ∧
        e.netCost n = .ok cost ∧ fresh.netCost n = .ok cost) ∧
    ((∀ n cost, e.netCost n = .ok cost → (cost == cost) = true) →
      ∃ e', e.verify nl = .ok (e', none)) := by
  have hsettled := h.settled
  have htracks := hsettled.tracks
  have hidle := hsettled.orderly.idle hsettled.idle
  refine ⟨fun m hm => ?_, ?_, hsettled.verify⟩
  · have happly := (Netlist.apply_eq_ok hm).2 rfl
    refine ⟨_, happly, Netlist.revert_apply hm happly, ?_, ?_⟩
    · intro timing e' o heval
      have hdone := hsettled.orderly.evaluated heval
      refine ⟨fun n hn => ?_, (hsettled.orderly.evaluate heval).exists_commit hdone.pending, _,
        rollback_eq_ok.2 ⟨hdone.pending, rfl⟩⟩
      obtain ⟨g, hg, hscan⟩ := hsettled.proposed_eq_scan hm happly heval hn
      exact ⟨g, (hdone.same.setup.scan _ n).trans hscan, entry_of_some hg⟩
    · intro hon hsinks timing timed htime
      obtain ⟨bare, hfactors⟩ := hsettled.factors
      exact htracks.exists_evaluate hidle hsettled.orderly.proposedSize
        (ChannelFactors.cover_ofDevice hsettled.interior hfactors) hm happly
        (htracks.lands hm happly hon hsinks) htime
  · obtain ⟨fresh, findings, hfresh⟩ := hsettled.exists_fresh
    refine ⟨fresh, findings, hfresh, fun n net hnet hcounted => ?_⟩
    have hsettled' := settled_ofDevice htracks.consistent hfresh
    obtain ⟨g, cost, hexact⟩ := htracks.exact n net hnet hcounted
    obtain ⟨g', cost', hexact'⟩ := hsettled'.tracks.exact n net hnet hcounted
    obtain ⟨rfl, rfl⟩ := hexact.unique hexact' (hsettled.setup hsettled' rfl rfl)
    exact ⟨_, _, hexact.committedOf, hexact'.committedOf, hexact.netCost, hexact'.netCost⟩

/-- After the move of the second block of the small engine is committed, a verification finds
nothing. -/
theorem search_exact_small : ∃ e'' e₃, Sample.evaluated.1.commit = .ok e'' ∧
    e''.verify Sample.placed = .ok (e₃, none) := by
  obtain ⟨hmoves, -, -⟩ := search_exact Sample.search_engine
  obtain ⟨placed, happly, -, htry, -⟩ := hmoves Sample.move Sample.fits_move
  obtain rfl : Sample.placed = placed := Except.ok.inj (Sample.apply_eq.symm.trans happly)
  obtain ⟨-, ⟨e'', hcommit⟩, -⟩ := htry none _ _ Sample.evaluate_eq
  have haccepted := Sample.search_engine.accept Sample.fits_move happly Sample.evaluate_eq hcommit
  obtain ⟨-, -, hverify⟩ := search_exact haccepted
  obtain ⟨e₃, h⟩ := hverify fun _ cost _ => beq_self_eq_true cost
  exact ⟨e'', e₃, hcommit, h⟩

end Engine

end WireCost
