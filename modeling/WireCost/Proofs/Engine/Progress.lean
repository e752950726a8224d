import WireCost.Proofs.Engine.Tracking
import WireCost.Proofs.Geometry.Cost

/-! # Evaluations that succeed

* **`Engine.timeVisits`** — what an evaluation does to the timings; it depends on no geometry.
* **`Engine.evaluate_time`** — the timings and their total after an evaluation.
* **`Engine.Tracks.exists_evaluate`** — a move can be evaluated when the pins of the nets that it
  touches have sites, their sinks can be counted and their connections can be timed; with factors
  that do not cover the device, the geometries have to be known to have costs. -/

namespace WireCost.Engine

variable {δ α : Type} [CostScalar α] [DelayScalar δ α] {e e₀ e' : Engine δ α} {nl placed : Netlist}
  {n : NetId} {net : Net} {driver p : PinId} {pin : Pin} {r : Relocation} {m : Move}
  {timing : Option (TimingInputs δ)} {done : List PinId} {s : NetState α} {delta delta' : α}
  {o : Outcome α}

/-! ## Timings -/

/-- What a visit does to the timings and to their total. -/
def timeVisit (e : Engine δ α) (nl : Netlist) (m : Move) (timing : Option (TimingInputs δ))
    (state : ConnectionTable δ α × α) (v : Relocation × PinId) :
    Checked (ConnectionTable δ α × α) :=
  match e.visitedNet nl v.2 with
  | none => .ok state
  | some n => do ConnectionTable.visit nl timing m n (← nl.pin v.2) state

/-- **What an evaluation does to the timings,** visit by visit. -/
def timeVisits (e : Engine δ α) (nl : Netlist) (m : Move) (timing : Option (TimingInputs δ)) :
    Checked (ConnectionTable δ α × α) :=
  (nl.visits m).foldlM (e.timeVisit nl m timing) (e.connections, zero)

theorem Visited.time (h : Visited nl m timing r p e delta e' delta') (hsame : SameCommitted e₀ e) :
    e₀.timeVisit nl m timing (e.connections, delta) (r, p) = .ok (e'.connections, delta') := by
  cases h with
  | passed hpin hpass =>
    rw [timeVisit, ← hsame.visitedNet_eq, visitedNet_eq_none hpin hpass]
  | @counted n pin s e₁ t _ hpin hid hs hcounted _ htime =>
    have hsome : e₀.visitedNet nl p = some n := by
      rw [← hsame.visitedNet_eq]
      exact visitedNet_eq_some.2 ⟨⟨pin, hpin, hid⟩, s, hs, hcounted⟩
    rw [timeVisit, hsome]
    dsimp only
    rw [Netlist.pin, entry_of_some hpin, Checked.ok_bind, htime]

/-- **The timings after an evaluation.** -/
theorem evaluate_time (h : e.evaluate nl m timing = .ok (e', o)) :
    e.timeVisits nl m timing = .ok (e'.connections, o.timingDelta) := by
  obtain ⟨-, -, e₁, timingDelta, boxDelta, hvisits, hrecost, rfl⟩ := evaluate_eq_ok.1 h
  have hcosted := costed_of_foldlM hrecost
  have hconnections : e'.connections = e₁.connections := by rw [hcosted.same]
  rw [hconnections]
  -- after each visit, the timings are those of the visits so far
  refine (Checked.foldlM_induct (c := (e₁, timingDelta)) (fun done s => SameCommitted e s.1 ∧
    done.foldlM (e.timeVisit nl m timing) (e.connections, zero) = .ok (s.1.connections, s.2))
    ⟨⟨rfl, rfl, rfl, rfl, rfl, rfl, rfl, rfl, .refl _⟩, rfl⟩ ?_ hvisits).2
  rintro done ⟨r, p⟩ rest ⟨s, delta⟩ ⟨s', delta'⟩ - ⟨hsame, htime⟩ hstep
  have hvisit := visit_eq_ok.1 hstep
  refine ⟨hsame.trans hvisit.sameCommitted, ?_⟩
  rw [List.foldlM_append, htime, Checked.ok_bind, List.foldlM_cons, hvisit.time hsame]
  rfl

/-! ## Following a pin -/

omit [DelayScalar δ α]

/-- **A pin can be followed** when the pins of its net have sites and its sinks can be counted. -/
theorem Midway.exists_followed (h : Midway e₀ nl placed done n net driver s.update
    e.geometry.proposed[n.toNat]?) (htracks : e₀.Tracks nl) (hc : nl.Counts n net driver)
    (hsame : SameCommitted e₀ e) (hs : e.nets[n.toNat]? = some s)
    (hin : n.toNat < e.geometry.proposed.size) (hp : p ∉ done)
    (hmoves : nl.Moves placed e₀.interior r p pin) (hid : pin.net = some n) (hm : m.Fits nl)
    (happly : nl.apply m = .ok placed) (hsited : placed.Sited e₀.interior net driver)
    (hsinks : net.sinks.length < Word.size31) : ∃ e', Followed e placed n r pin e' := by
  have hplaced := Netlist.consistent_apply htracks.consistent hm happly
  have hc' := hc.apply hm happly
  have hfits : ∀ σ, (net.bagAt driver σ).Fits := by
    intro σ
    refine SiteBag.fits_of_card_lt ?_
    rwa [Net.card_bagAt]
  obtain ⟨g, hg⟩ := exists_scan hplaced htracks.layers htracks.room hc' hsited (hfits _)
  rw [← hsame.setup.scan] at hg
  -- two cases need no old geometry: the net is scanned already, or small enough to be scanned
  by_cases hopen : s.update = .rescanned
  · exact ⟨e, .already hs hopen⟩
  by_cases hsmall : net.sinks.length < e.options.smallNet
  · exact ⟨_, .small hs hopen hc'.entry hsmall hin hg⟩
  -- the pin has a site before and after the move
  have hmem := (Netlist.mem_pins_iff htracks.consistent hc).2 ⟨pin, hmoves.entry, hid⟩
  obtain ⟨g₀, hg₀, hsited₀, -⟩ := htracks.measures hc
  have hold : e.interior.siteAt r.source pin.offset = .ok (nl.siteMap e₀.interior p) := by
    rw [hsame.interior, ← hmoves.source, hsited₀ p hmem]
  have hnew : e.interior.siteAt r.target pin.offset = .ok (placed.siteMap e₀.interior p) := by
    rw [hsame.interior, ← hmoves.target, hsited p hmem]
  have hshift : e.shiftOf r pin = .ok ⟨nl.siteMap e₀.interior p, placed.siteMap e₀.interior p,
      pin.direction == .driver⟩ := shiftOf_eq_ok.2 ⟨hold, hnew, rfl⟩
  obtain ⟨base, hbase⟩ : ∃ base,
      (e.geometry.side (s.update = .untouched))[n.toNat]? = some base := by
    by_cases hfresh : s.update = .untouched
    · refine ⟨g₀, ?_⟩
      rw [GeometryTable.side, decide_eq_true hfresh, if_pos rfl, hsame.geometries]
      exact hg₀
    · refine ⟨e.geometry.proposed[n.toNat], ?_⟩
      rw [GeometryTable.side, decide_eq_false hfresh, if_neg Bool.false_ne_true]
      exact Array.getElem?_eq_getElem hin
  -- whether the geometry can be adjusted or the net is scanned again, the pin is followed
  obtain ⟨-, hbag, o, hfollows⟩ :=
    h.follows htracks hc hsame hp hmoves hid hopen hbase hshift
  have hrun := (hfollows.run_iff o).2 ⟨.inr (hbag ▸ hfits _), rfl⟩
  cases o with
  | none => exact ⟨_, .refused hs hopen hc'.entry hsmall hshift hbase hrun hin hg⟩
  | some g' => exact ⟨_, .adjusted hs hopen hc'.entry hsmall hshift hbase hrun⟩

/-! ## All visits -/

variable [DelayScalar δ α]

/-- **The pins of all nets that a move touches** have sites at its end, and their sinks can be
counted. -/
structure Lands (e : Engine δ α) (nl placed : Netlist) (m : Move) : Prop where
  sited : ∀ (n : NetId) (net : Net) (driver : PinId), nl.Counts n net driver →
    n ∈ e.touchedNets placed (placed.visits m) → placed.Sited e.interior net driver
  sinks : ∀ (n : NetId) (net : Net) (driver : PinId), nl.Counts n net driver →
    n ∈ e.touchedNets placed (placed.visits m) → net.sinks.length < Word.size31

/-- **A pin can be visited** if its net can be followed and its connections can be timed. -/
theorem Amid.exists_visit (h : Amid e₀ nl placed done e) (htracks : e₀.Tracks nl)
    (hroom : e₀.geometry.proposed.size = e₀.nets.size) (hm : m.Fits nl)
    (happly : nl.apply m = .ok placed) (hlands : e₀.Lands nl placed m) (hp : p ∉ done)
    (hv : (r, p) ∈ placed.visits m) (hmoves : nl.Moves placed e₀.interior r p pin)
    {timed : ConnectionTable δ α × α}
    (htime : e₀.timeVisit placed m timing (e.connections, delta) (r, p) = .ok timed) :
    ∃ e' delta', Visited placed m timing r p e delta e' delta' := by
  have hpin : placed.pins[p.toNat]? = some pin := by
    rw [(Netlist.apply_pins_nets hm happly).1, hmoves.entry]
  cases hnet : e₀.visitedNet placed p with
  | none =>
    refine ⟨e, delta, .passed hpin fun n hid => ?_⟩
    obtain ⟨net, hentry, -⟩ := htracks.consistent.nets.netOf p pin n hmoves.entry hid
    have hlt : n.toNat < e₀.nets.size := by
      rw [htracks.size]
      exact (Array.getElem?_eq_some_iff.1 hentry).1
    obtain ⟨s, hs, -, hflag⟩ := h.same.net' (Array.getElem?_eq_getElem hlt)
    refine ⟨s, hs, hflag.trans ?_⟩
    -- a net that counts would be visited
    by_contra hcounted
    have hsome : e₀.visitedNet placed p = some n := visitedNet_eq_some.2
      ⟨⟨pin, hpin, hid⟩, _, Array.getElem?_eq_getElem hlt, by simpa using hcounted⟩
    rw [hnet] at hsome
    cases hsome
  | some n =>
    obtain ⟨⟨pin', hpin', hid⟩, s₀, hs₀, hcounted⟩ := visitedNet_eq_some.1 hnet
    obtain rfl := Option.some.inj (hpin.symm.trans hpin')
    obtain ⟨net, driver, hc⟩ := htracks.counts_of_state hs₀ hcounted
    obtain ⟨s, hs, hmidway⟩ := h.nets n net driver hc
    have htouched : n ∈ e₀.touchedNets placed (placed.visits m) :=
      mem_touchedNets.2 ⟨(r, p), hv, hnet⟩
    have hflag : s.ignored = false := by
      obtain ⟨s₁, hs₁, -, hflag⟩ := h.same.net hs
      obtain rfl := Option.some.inj (hs₀.symm.trans hs₁)
      exact hflag.trans hcounted
    obtain ⟨cost, htouch, -⟩ := onlyNet_touch hs
    have hmidway' : Midway e₀ nl placed done n net driver { s with proposed := some cost }.update
        (e.touch n s).geometry.proposed[n.toNat]? := by
      rw [geometry_touch]
      exact hmidway
    have hin : n.toNat < (e.touch n s).geometry.proposed.size := by
      rw [geometry_touch, h.same.size, hroom]
      exact (Array.getElem?_eq_some_iff.1 hs₀).1
    obtain ⟨e₁, hfollow⟩ := hmidway'.exists_followed htracks hc
      (h.same.trans (sameCommitted_touch e n s)) htouch.new hin hp hmoves hid hm happly
      (hlands.sited n net driver hc htouched) (hlands.sinks n net driver hc htouched)
    rw [timeVisit, hnet] at htime
    dsimp only at htime
    rw [Netlist.pin, entry_of_some hpin, Checked.ok_bind] at htime
    exact ⟨_, _, .counted hpin hid hs hflag hfollow htime⟩

/-- **All pins of a move can be visited** under these conditions. -/
theorem Tracks.exists_visits (htracks : e₀.Tracks nl) (hidle : e₀.Idle)
    (hroom : e₀.geometry.proposed.size = e₀.nets.size) (hm : m.Fits nl)
    (happly : nl.apply m = .ok placed) (hlands : e₀.Lands nl placed m)
    {timed : ConnectionTable δ α × α} (htime : e₀.timeVisits placed m timing = .ok timed) :
    ∃ e₁ delta, (placed.visits m).foldlM (fun s v => Engine.visit placed m timing v.1 s v.2)
      ({ e₀ with pending := true, affected := [] }, zero) = .ok (e₁, delta) := by
  obtain ⟨⟨e₁, delta⟩, hvisits, -⟩ := Checked.foldlM_progress
    (f := fun s v => Engine.visit placed m timing v.1 s v.2) (l := placed.visits m)
    (b := ({ e₀ with pending := true, affected := [] }, zero))
    (fun done s => Amid e₀ nl placed (done.map Prod.snd) s.1 ∧
      done.foldlM (e₀.timeVisit placed m timing) (e₀.connections, zero) =
        .ok (s.1.connections, s.2)) ⟨htracks.amid_start hidle, rfl⟩ (by
      rintro done ⟨r, p⟩ rest ⟨s, delta⟩ hvisits ⟨hs, hprefix⟩
      obtain ⟨hnot, pin, hmoves⟩ := Netlist.exists_moves e₀.interior
        htracks.consistent hm happly hvisits
      -- the timings of all visits are known to succeed, so that of this one does
      rw [timeVisits, hvisits, List.foldlM_append, hprefix, Checked.ok_bind, List.foldlM_cons,
        Checked.bind_eq_ok] at htime
      obtain ⟨timed', hstep, -⟩ := htime
      obtain ⟨e', delta', hvisit⟩ := hs.exists_visit htracks hroom hm happly hlands hnot
        (by simp [hvisits]) hmoves hstep
      refine ⟨(e', delta'), visit_eq_ok.2 hvisit, ?_, ?_⟩
      · rw [List.map_append]
        exact hs.visit htracks hroom (Netlist.apply_pins_nets hm happly).1 hnot hmoves hvisit
      · rw [List.foldlM_append, hprefix, Checked.ok_bind, List.foldlM_cons, hvisit.time hs.same]
        rfl)
  exact ⟨e₁, delta, hvisits⟩

/-- The blocks of an applied move sit at their targets. -/
theorem isApplied_apply (hm : m.Fits nl) (happly : nl.apply m = .ok placed) :
    m.IsApplied placed := by
  obtain rfl := (Netlist.apply_eq_ok hm).1 happly
  intro r hr
  obtain ⟨b, hb, -⟩ := hm.starts r hr
  refine ⟨{ b with location := r.target }, ?_, rfl⟩
  rw [Netlist.getElem?_relocate, hb, Option.map_some,
    Netlist.relocateBlock_of_mem hm.distinct hr]

/-- **A move can be evaluated** when it lands on sites, the geometries at its end can be costed and
its connections can be timed. -/
theorem Tracks.exists_evaluate_of_costs (htracks : e₀.Tracks nl) (hidle : e₀.Idle)
    (hroom : e₀.geometry.proposed.size = e₀.nets.size) (hm : m.Fits nl)
    (happly : nl.apply m = .ok placed) (hlands : e₀.Lands nl placed m)
    (hcosts : ∀ (n : NetId) (g : Geometry), n ∈ e₀.touchedNets placed (placed.visits m) →
      e₀.geometry.scan placed e₀.interior n = .ok g → ∃ cost, g.cost e₀.form e₀.factors = .ok cost)
    {timed : ConnectionTable δ α × α} (htime : e₀.timeVisits placed m timing = .ok timed) :
    ∃ e' o, e₀.evaluate placed m timing = .ok (e', o) := by
  have hplaced := Netlist.consistent_apply htracks.consistent hm happly
  obtain ⟨e₁, timingDelta, hvisits⟩ := htracks.exists_visits hidle hroom hm happly hlands htime
  have hamid := htracks.amid hidle hroom hm happly hvisits
  have hmarks := marks_of_visits hidle hvisits
  have hproposes : ∀ n ∈ e₁.affected, ∃ g cost s, e₁.Proposes n g cost ∧
      e₁.nets[n.toNat]? = some s := by
    intro n hn
    obtain ⟨net, driver, s, g, hc, hs, hg, hscan⟩ :=
      hamid.exists_scan hmarks htracks hm happly hn
    obtain ⟨hsited, -, hmeasures⟩ :=
      (scan_eq_ok hplaced htracks.layers htracks.room (hc.apply hm happly)).1 hscan
    obtain ⟨cost, hcost⟩ := hcosts n g (hmarks.affected ▸ hn) hscan
    refine ⟨g, cost, s, ⟨hg, ?_, ?_⟩, hs⟩
    · have hform : e₁.form = e₀.form := hmarks.same.form
      rw [hform, hmarks.same.factors, hcost]
    · refine checkProposed_of_measures hmeasures ?_ n
      rw [hmarks.same.interior]
      exact hsited.encloses
  -- costing a net leaves what is proposed for the others as it is
  obtain ⟨⟨e', boxDelta⟩, hrecost, -⟩ := Checked.foldlM_progress (f := Engine.recost)
    (l := e₁.affected) (b := (e₁, zero)) (fun done s => Costed e₁ done s.1 s.2)
    ⟨rfl, .refl _, by simp, fun _ _ => rfl, rfl⟩ (by
      rintro done n rest ⟨s, delta⟩ haffected hs
      dsimp only at hs
      obtain ⟨g, cost, state, ⟨hg, hcost, hcheck⟩, hstate⟩ := hproposes n (by simp [haffected])
      obtain ⟨state', hstate', -⟩ := hs.costs.net' hstate
      have hproposes' : s.Proposes n g cost := by
        rw [hs.same]
        exact ⟨hg, hcost, hcheck⟩
      have hstep : recost (s, delta) n = .ok (_, delta + (cost - state'.cost)) :=
        recost_eq_ok.2 ⟨g, cost, state', hproposes', hstate', rfl, rfl⟩
      exact ⟨_, hstep, hs.recost hstep⟩)
  exact ⟨e', _, evaluate_eq_ok.2
    ⟨hidle.pending, isApplied_apply hm happly, e₁, timingDelta, boxDelta, hvisits, hrecost, rfl⟩⟩

/-- **A move can be evaluated** when it lands on sites of the device and its connections can be
timed. -/
theorem Tracks.exists_evaluate (htracks : e₀.Tracks nl) (hidle : e₀.Idle)
    (hroom : e₀.geometry.proposed.size = e₀.nets.size) (hcover : e₀.factors.Cover e₀.interior)
    (hm : m.Fits nl) (happly : nl.apply m = .ok placed) (hlands : e₀.Lands nl placed m)
    {timed : ConnectionTable δ α × α} (htime : e₀.timeVisits placed m timing = .ok timed) :
    ∃ e' o, e₀.evaluate placed m timing = .ok (e', o) := by
  have hplaced := Netlist.consistent_apply htracks.consistent hm happly
  refine htracks.exists_evaluate_of_costs hidle hroom hm happly hlands (fun n g hn hscan => ?_)
    htime
  obtain ⟨net, driver, hc⟩ := htracks.counts_of_touched hn
  obtain ⟨hsited, -, hmeasures⟩ :=
    (scan_eq_ok hplaced htracks.layers htracks.room (hc.apply hm happly)).1 hscan
  refine hmeasures.exists_cost htracks.room hsited.encloses hcover ?_
  rw [Net.card_bagAt]
  exact hc.length_sinks_lt htracks.consistent

end WireCost.Engine
