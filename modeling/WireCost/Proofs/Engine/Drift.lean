import Mathlib.Algebra.Order.Ring.Cast
import Mathlib.Tactic.Positivity
import WireCost.Proofs.Engine.Exactness
import WireCost.Proofs.Engine.TimedRun
import WireCost.Proofs.Timing.Serving

/-! # Running totals

The caller adds up what accepted moves change. Where costs are computed with exactly, the sums are
the totals that a recomputation finds.

* **`Engine.Steady.boxCost_accept`** — an accepted move changes the total of the committed costs by
  what it has answered.
* **`Engine.Steady.recomputeBoxCost_eq`**, **`Engine.Steady.boxCost_fresh`** — adding the costs up
  again, or building a new engine, gives that total.
* **`Engine.TimedRun.totals_eq`** — along a run with timing both totals are exact.
* **`Engine.totals_never_drift`** — so that a check of the totals finds no drift. -/

namespace WireCost.Engine

/-! ## The committed costs as a list -/

section

variable {δ α : Type} [CostScalar α] {e fresh : Engine δ α} {nl : Netlist}

/-- The committed costs, net by net. -/
theorem costs_eq (hroom : e.nets.size ≤ Word.size32) :
    e.nets.toList.map (·.cost) = e.netIds.map e.costBefore := by
  refine List.ext_getElem? fun i => ?_
  rw [netIds, List.map_map, List.getElem?_map, List.getElem?_map, Array.getElem?_toList]
  by_cases hi : i < e.nets.size
  · have hid := NetId.toNat_ofNat (hi.trans_le hroom)
    rw [List.getElem?_range hi, Array.getElem?_eq_getElem hi, Option.map_some, Option.map_some,
      Function.comp_apply, costBefore, hid, Array.getElem?_eq_getElem hi]
  · rw [List.getElem?_eq_none (by simpa using hi), Array.getElem?_eq_none (by simpa using hi)]
    rfl

variable [DelayScalar δ α]

/-- **A new engine** for the same setup has the same committed costs. -/
theorem Steady.boxCost_fresh (h : e.Steady nl)
    (hfresh : ofFactors e.interior e.factors e.form e.options nl = .ok fresh) :
    fresh.boxCost = e.boxCost := by
  have hsteady := steady_ofFactors h.tracks.consistent h.tracks.room hfresh
  obtain ⟨hinterior, hfactors, hform, -⟩ := setup_ofFactors hfresh
  have hsetup : SameSetup e fresh := by
    refine ⟨hinterior, hfactors, hform, ?_⟩
    rw [hsteady.tracks.layers, h.tracks.layers, hinterior]
  have hsize := h.tracks.size
  have hsize' := hsteady.tracks.size
  rw [boxCost, boxCost, costs_eq hsteady.tracks.size_le, costs_eq h.tracks.size_le]
  have hids : fresh.netIds = e.netIds := by rw [netIds, netIds, hsize, hsize']
  rw [hids]
  congr 1
  refine List.map_congr_left fun n hn => ?_
  have hlt := toNat_lt_of_mem_netIds hn
  have hs := Array.getElem?_eq_getElem hlt
  have hs' := Array.getElem?_eq_getElem (hsize' ▸ hsize ▸ hlt : n.toNat < fresh.nets.size)
  have hnet := Array.getElem?_eq_getElem (hsize ▸ hlt : n.toNat < nl.nets.size)
  have hflag := h.tracks.ignored n _ _ hnet hs
  have hflag' := hsteady.tracks.ignored n _ _ hnet hs'
  -- an ignored net costs nothing on either side, and another one is committed exactly
  cases hignored : nl.nets[n.toNat].ignored with
  | true =>
    rw [costBefore_eq hs, costBefore_eq hs', h.ignored _ _ hs (hflag.trans hignored),
      hsteady.ignored _ _ hs' (hflag'.trans hignored)]
  | false =>
    obtain ⟨g, cost, hexact⟩ := h.tracks.exact n _ hnet hignored
    obtain ⟨g', cost', hexact'⟩ := hsteady.tracks.exact n _ hnet hignored
    obtain ⟨-, hcost⟩ := hexact.unique hexact' hsetup
    obtain ⟨s, hs, hexactCost⟩ := hexact.state
    obtain ⟨s', hs', hexactCost'⟩ := hexact'.state
    rw [costBefore_eq hs, costBefore_eq hs', hexactCost, hexactCost', hcost]

end

/-! ## The box total -/

section

variable {δ α : Type} [ExactCost α] {e e' e'' : Engine δ α} {nl placed : Netlist} {m : Move}

theorem boxCost_eq_sum (hroom : e.nets.size ≤ Word.size32) :
    e.boxCost = (e.netIds.map e.costBefore).sum := by
  rw [boxCost, costs_eq hroom, sum_eq]

/-- **Adding the costs of the committed boxes up again** gives their total. -/
theorem Steady.recomputeBoxCost_eq (h : e.Steady nl) : e.recomputeBoxCost = .ok e.boxCost := by
  have hroom := h.tracks.size_le
  rw [Engine.recomputeBoxCost, h.tracks.mapM_committedCost, Checked.ok_bind, sum_eq,
    boxCost_eq_sum hroom, countedNets]
  congr 1
  refine sum_map_filter fun n hn hflag => ?_
  -- a net that is left out costs nothing
  have hs := Array.getElem?_eq_getElem (toNat_lt_of_mem_netIds hn)
  rw [hs] at hflag
  rw [costBefore_eq hs, h.ignored _ _ hs (by simpa using hflag), zero_eq]

variable [DelayScalar δ α] {timing : Option (TimingInputs δ)} {o : Outcome α}

/-- **An accepted move** changes the total by what it has answered. -/
theorem Steady.boxCost_accept (h : e.Steady nl) (heval : e.evaluate placed m timing = .ok (e', o))
    (hcommit : e'.commit = .ok e'') : e''.boxCost = e.boxCost + o.boxDelta := by
  have hdone := h.orderly.evaluated heval
  have horderly := h.orderly.evaluate heval
  have haccepted := horderly.accepted hcommit
  have hsize : e''.nets.size = e.nets.size := haccepted.netsSize.trans hdone.same.nets_size
  have hroom := h.tracks.size_le
  have hids : e''.netIds = e.netIds := by rw [netIds, netIds, hsize]
  obtain ⟨hnodup, hlisted⟩ := horderly.listed hdone.pending
  -- a touched net is committed at its proposed cost, and another one keeps its cost
  have hafter : ∀ n ∈ e'.affected, e''.costBefore n = e'.costAfter n := by
    intro n hn
    obtain ⟨g, s, cost, hproposes, hs, hcost, -⟩ := hdone.costed n hn
    rw [hproposes.costAfter_eq, costBefore, haccepted.nets, if_pos (NetId.toNat_mem_map.2 hn), hs,
      Option.map_some]
    simp [NetState.accept, hcost]
  have hkept : ∀ n ∈ e.netIds, n ∉ e'.affected → e''.costBefore n = e.costBefore n := by
    intro n _ hn
    have hmem : n.toNat ∉ e'.affected.map NetId.toNat := mt NetId.toNat_mem_map.1 hn
    rw [costBefore, costBefore, haccepted.nets, if_neg hmem, hdone.nets _ hmem]
  have hdelta : o.boxDelta = (e'.affected.map fun n => e''.costBefore n - e.costBefore n).sum := by
    rw [hdone.boxDelta, foldl_add_eq]
    congr 1
    exact List.map_congr_left fun n hn => by rw [hafter n hn]
  rw [boxCost_eq_sum (hsize ▸ hroom), boxCost_eq_sum hroom, hids, hdelta]
  refine sum_map_after (NetId.nodup_map_ofNat hroom) hnodup (fun n hn => ?_) hkept
  rw [mem_netIds hroom, ← hdone.same.nets_size]
  exact hlisted n hn

/-! ## The timing total -/

variable {inputs : TimingInputs δ} {totals : Totals α}

/-- The committed costs of all connections that count. -/
def timingCost (e : Engine δ α) (nl : Netlist) : α :=
  (nl.countedConnections.map (e.connections.costBefore nl)).sum

/-- **Timing all connections** takes down the total of the costs that it commits. -/
theorem Steady.timingCost_eq (h : e.Steady nl) {total : α}
    (htime : e.recomputeTiming nl inputs = .ok (e', total)) : total = e'.timingCost nl := by
  obtain ⟨-, t, hrecompute, rfl⟩ := recomputeTiming_eq_ok.1 htime
  have hdone := ConnectionTable.recomputed_of_recompute h.timings h.tracks.consistent.numbered
    hrecompute
  rw [hdone.total, foldl_add_eq, timingCost]
  congr 1
  refine List.map_congr_left fun c hc => ?_
  obtain ⟨timed, htimed, hentry⟩ := hdone.timed c hc
  rw [ConnectionTable.costOf_eq htimed, ConnectionTable.costBefore_eq hentry]

/-- **An accepted move** changes the timing total by what it has answered. -/
theorem Steady.timingCost_accept (h : e.Steady nl) (hm : m.Fits nl)
    (happly : nl.apply m = .ok placed) (heval : e.evaluate placed m (some inputs) = .ok (e', o))
    (hcommit : e'.commit = .ok e'') :
    e''.timingCost placed = e.timingCost nl + o.timingDelta := by
  have hproposing := h.proposing hm happly heval
  have hplaced := Netlist.consistent_apply h.tracks.consistent hm happly
  obtain ⟨-, hnets⟩ := Netlist.apply_pins_nets hm happly
  have ht := h.timings.congr hnets
  have htouched := (h.orderly.idle h.idle).connections
  have htimings := ((h.orderly.evaluate heval).accepted hcommit).connections
  have hbefore : e.timingCost nl =
      (placed.countedConnections.map (e.connections.costBefore placed)).sum := by
    rw [timingCost, Netlist.countedConnections_congr hnets]
    congr 1
    refine List.map_congr_left fun c _ => ?_
    rw [ConnectionTable.costBefore, ConnectionTable.costBefore, Netlist.slotOf_congr hnets]
  -- a connection that changes its delay is committed at its new cost
  have hdelta : o.timingDelta =
      (((e.retimed placed m).filter (e.connections.changes placed inputs)).map fun c =>
        e''.connections.costBefore placed c - e.connections.costBefore placed c).sum := by
    rw [hproposing.delta.eq_sum]
    congr 1
    refine List.map_congr_left fun c hc => ?_
    obtain ⟨hretimed, hchanges⟩ := List.mem_filter.1 hc
    obtain ⟨timed, htimed, hentry⟩ := hproposing.getElem?_commit_of_changes ht hretimed hchanges
    rw [ConnectionTable.changeOf, ConnectionTable.costOf_eq htimed, htimings,
      ConnectionTable.costBefore_eq hentry]
  rw [hbefore, hdelta, timingCost]
  refine sum_map_after (Netlist.nodup_countedConnections hplaced.nets.room.le)
    ((nodup_retimed hplaced hm.distinct).filter _) (fun c hc => ?_) fun c hc hnot => ?_
  · exact ((h.tracks.mem_retimed hm happly).1 (List.mem_filter.1 hc).1).1
  · rw [htimings, ConnectionTable.costBefore, ConnectionTable.costBefore,
      hproposing.getElem?_commit_of_notMem ht htouched (Netlist.hasConnection_of_mem_counted hc)
        hnot]

/-! ## Both totals -/

/-- **Along every run with timing** the totals are those of the committed costs. -/
theorem TimedRun.totals_eq (h : TimedRun inputs nl e totals) :
    totals = ⟨e.boxCost, e.timingCost nl⟩ := by
  induction h with
  | start h htime => rw [h.sound.steady.timingCost_eq htime]
  | accept h hm happly heval hcommit ih =>
    rw [ih, Totals.apply, h.steady.boxCost_accept heval hcommit,
      h.steady.timingCost_accept hm happly heval hcommit]
  | reject h hm happly heval hrollback hrevert ih =>
    obtain rfl := Netlist.eq_of_revert hm happly hrevert
    have halike := (h.steady.orderly.twins_of_rollback heval hrollback).alike
    rw [ih, boxCost, boxCost, halike.nets, timingCost, timingCost]
    unfold ConnectionTable.costBefore
    rw [halike.timings.committed]

/-- Where equal delays are the same number, timing all connections once more finds the total. -/
theorem TimedRun.recomputeTiming_eq (h : TimedRun inputs nl e totals)
    (hlocal : inputs.delay.IsLocal) (hsame : ∀ a b : δ, (a == b) = true → a = b) :
    e.recomputeTiming nl inputs = .ok (e, totals.timing) := by
  have hagain := (h.timed hlocal).recomputeTiming h.steady hsame
  rw [hagain, h.totals_eq, h.steady.timingCost_eq hagain]

end

end WireCost.Engine

/-! ## Costs that are not negative -/

namespace WireCost

variable {α : Type} [ExactCost α]

/-- Factors that are not negative. -/
structure ChannelFactors.Nonneg (f : ChannelFactors α) : Prop where
  x : ∀ v ∈ f.x.values, 0 ≤ v
  y : ∀ v ∈ f.y.values, 0 ≤ v

/-- Delays and criticalities that are not negative. -/
structure TimingInputs.Nonneg {δ : Type} [DelayScalar δ α] (inputs : TimingInputs δ) : Prop where
  delay : ∀ nl n sink delay, inputs.delay nl n sink = .ok delay →
    (0 : α) ≤ DelayScalar.toCost delay
  criticality : ∀ n sink weight, inputs.criticality n sink = .ok weight →
    (0 : α) ≤ DelayScalar.toCost weight

theorem ofDecimal_nonneg (digits places : Nat) :
    (0 : α) ≤ CostScalar.ofDecimal digits places := by
  rw [ExactCost.ofDecimal_eq]
  positivity

theorem crossing_nonneg (pins : Nat) : (0 : α) ≤ crossing pins := by
  rw [crossing]
  split
  · have hcount : (0 : α) ≤ ofCount (pins - 50) := by
      rw [ofCount, ExactCost.ofInt_eq]
      positivity
    have hfirst := ofDecimal_nonneg (α := α) 27933 4
    have hmore := mul_nonneg (ofDecimal_nonneg (α := α) 2616 5) hcount
    exact add_nonneg hfirst hmore
  · exact ofDecimal_nonneg ..

theorem Span.factor_nonneg {s : Span} {t : SpanTable α} {v : α} (ht : ∀ v ∈ t.values, 0 ≤ v)
    (h : s.factor t = .ok v) : 0 ≤ v := by
  obtain ⟨before, -, h⟩ := Checked.bind_eq_ok.1 h
  obtain ⟨-, -, h⟩ := Checked.bind_eq_ok.1 h
  exact ht v (Array.mem_of_getElem? (entry_eq_ok.1 h))

/-- A span of the interior covers at least one line. -/
theorem Span.IsWithin.lines_pos {s : Span} {last n : Int} (h : s.IsWithin last)
    (hlines : s.lines = .ok n) : 0 < n := by
  obtain ⟨length, hlength, hcount⟩ := Checked.bind_eq_ok.1 hlines
  obtain ⟨-, rfl⟩ := Word.int32_eq_ok.1 hlength
  obtain ⟨-, rfl⟩ := Word.int32_eq_ok.1 hcount
  have horder := h.order
  omega

/-- **A box in the interior** costs nothing or more. -/
theorem EdgeBox.IsWithin.boxCost_nonneg {f : ChannelFactors α} {i : Interior} {b : EdgeBox}
    {pins : Nat} {cost : α} (h : b.IsWithin i) (hf : f.Nonneg)
    (hcost : boxCost f b pins = .ok cost) : 0 ≤ cost := by
  obtain ⟨xspan, hxspan, hcost⟩ := Checked.bind_eq_ok.1 hcost
  obtain ⟨yspan, hyspan, hcost⟩ := Checked.bind_eq_ok.1 hcost
  obtain ⟨xfactor, hxfactor, hcost⟩ := Checked.bind_eq_ok.1 hcost
  obtain ⟨yfactor, hyfactor, hcost⟩ := Checked.bind_eq_ok.1 hcost
  cases hcost
  have hx : (0 : α) ≤ CostScalar.ofInt xspan := by
    rw [ExactCost.ofInt_eq]
    exact Int.cast_nonneg (h.x.lines_pos hxspan).le
  have hy : (0 : α) ≤ CostScalar.ofInt yspan := by
    rw [ExactCost.ofInt_eq]
    exact Int.cast_nonneg (h.y.lines_pos hyspan).le
  have hpins := crossing_nonneg (α := α) pins
  exact add_nonneg (mul_nonneg (mul_nonneg hx hpins) (Span.factor_nonneg hf.x hxfactor))
    (mul_nonneg (mul_nonneg hy hpins) (Span.factor_nonneg hf.y hyfactor))

/-- **An exact geometry** costs nothing or more. -/
theorem Geometry.Measures.cost_nonneg {form : BoxForm} {layers : Nat} {g : Geometry} {b : SiteBag}
    {i : Interior} {f : ChannelFactors α} {cost : α} (h : g.Measures form layers b)
    (hi : i.Encloses b) (hf : f.Nonneg) (hcost : g.cost form f = .ok cost) : 0 ≤ cost := by
  rw [Geometry.cost] at hcost
  cases form with
  | cube =>
    rw [measure] at hcost
    obtain ⟨total, -, hcost⟩ := Checked.bind_eq_ok.1 hcost
    split at hcost
    · cases hcost
      exact zero_eq.ge
    · obtain ⟨box, hbox, hcost⟩ := Checked.bind_eq_ok.1 hcost
      obtain ⟨pins, -, hcost⟩ := Checked.bind_eq_ok.1 hcost
      exact (h.isWithin hi (List.mem_of_getElem? (entry_eq_ok.1 hbox))).boxCost_nonneg hf hcost
  | perLayer =>
    rw [measure] at hcost
    obtain ⟨terms, hterms, hcost⟩ := Checked.bind_eq_ok.1 hcost
    cases hcost
    rw [sum_eq]
    refine List.sum_nonneg fun term hterm => ?_
    -- each term is the cost of one of the boxes
    have hmem := List.mem_map_of_mem (f := (Except.ok : α → Checked α)) hterm
    rw [← Checked.mapM_eq_ok.1 hterms] at hmem
    obtain ⟨⟨box, n⟩, hbox, hterm⟩ := List.mem_map.1 hmem
    have hin := (List.of_mem_zip (List.mem_of_mem_filter hbox)).1
    exact (h.isWithin hi hin).boxCost_nonneg hf hterm

namespace Engine

variable {δ : Type} {e : Engine δ α} {nl : Netlist}

/-- The box total is not negative. -/
theorem Steady.boxCost_nonneg [DelayScalar δ α] (h : e.Steady nl) (hf : e.factors.Nonneg) :
    0 ≤ e.boxCost := by
  have hroom := h.tracks.size_le
  rw [boxCost_eq_sum hroom]
  refine List.sum_nonneg fun cost hcost => ?_
  obtain ⟨n, hn, rfl⟩ := List.mem_map.1 hcost
  have hlt := toNat_lt_of_mem_netIds hn
  have hs := Array.getElem?_eq_getElem hlt
  rw [costBefore_eq hs]
  by_cases hignored : e.nets[n.toNat].ignored = true
  · rw [h.ignored _ _ hs hignored, zero_eq]
  · obtain ⟨net, driver, hc⟩ := h.tracks.counts_of_state hs (by simpa using hignored)
    obtain ⟨g, cost, hexact⟩ := h.tracks.exact n net hc.entry hc.counted
    obtain ⟨s, hs', hcost⟩ := hexact.state
    obtain rfl := Option.some.inj (hs.symm.trans hs')
    obtain ⟨hsited, -, hmeasures⟩ :=
      (scan_eq_ok h.tracks.consistent h.tracks.layers h.tracks.room hc).1 hexact.scan
    rw [hcost]
    exact hmeasures.cost_nonneg hsited.encloses hf hexact.costs

variable [DelayScalar δ α] {inputs : TimingInputs δ} {totals : Totals α}

/-- The timing total is not negative. -/
theorem Timed.timingCost_nonneg (h : e.Timed nl inputs) (hinputs : inputs.Nonneg)
    (hsame : ∀ a b : δ, (a == b) = true → a = b) : 0 ≤ e.timingCost nl := by
  refine List.sum_nonneg fun cost hcost => ?_
  obtain ⟨c, hc, rfl⟩ := List.mem_map.1 hcost
  obtain ⟨timed, hentry, hexact⟩ := h c hc
  obtain ⟨hdelay, weight, hweight, hproduct⟩ :=
    TimingInputs.timed_eq_ok.1 (hexact.timed_eq_ok hsame)
  rw [ConnectionTable.costBefore_eq hentry, hproduct]
  exact mul_nonneg (hinputs.criticality _ _ _ hweight) (hinputs.delay _ _ _ _ hdelay)

/-! ## No drift -/

omit [DelayScalar δ α] in
/-- A total that is recomputed exactly has not drifted. -/
theorem isWithinTolerance_self {total : α} (htotal : 0 ≤ total)
    (htolerance : 0 ≤ e.options.tolerance) : e.IsWithinTolerance total total := by
  rw [IsWithinTolerance, sub_self, ExactCost.magnitude_eq, abs_zero]
  exact mul_nonneg htotal htolerance

/-- **A check of exact totals** finds no drift and leaves everything as it is. -/
theorem checkTotals_eq {timing : Option (TimingInputs δ)}
    (hbox : e.recomputeBoxCost = .ok totals.box)
    (htiming : ∀ inputs, timing = some inputs →
      e.recomputeTiming nl inputs = .ok (e, totals.timing))
    (hboxTotal : 0 ≤ totals.box) (htimingTotal : 0 ≤ totals.timing)
    (htolerance : 0 ≤ e.options.tolerance) :
    e.checkTotals nl totals timing = .ok ⟨e, totals, none, []⟩ := by
  have hboxClose := isWithinTolerance_self hboxTotal htolerance
  cases timing with
  | none => exact checkTotals_ends.2 (.boxes hbox hboxClose)
  | some inputs =>
    exact checkTotals_ends.2 (.both hbox hboxClose (htiming inputs rfl)
      (isWithinTolerance_self htimingTotal htolerance))

/-- **Running totals never drift,** as far as costs are computed with exactly, equal delays are the
same number, and the model of delays looks at the two ends of a connection only. Along every run
with timing, the box total is the total of the committed net costs, it is found again by adding up
the costs of the committed boxes, and a new engine for the current placement has the same one; the
timing total is what timing all connections once more yields, which changes nothing. Where factors,
delays, criticalities and the tolerance are not negative, a check of the totals, with timing or
without, finds no drift, tells nothing and leaves both totals and the engine as they are. -/
theorem totals_never_drift (hlocal : inputs.delay.IsLocal) (h : TimedRun inputs nl e totals)
    (hsame : ∀ a b : δ, (a == b) = true → a = b) :
    e.boxCost = totals.box ∧ e.recomputeBoxCost = .ok totals.box ∧
    (∃ fresh : Engine δ α, ofFactors e.interior e.factors e.form e.options nl = .ok fresh ∧
      fresh.boxCost = totals.box) ∧
    e.recomputeTiming nl inputs = .ok (e, totals.timing) ∧
    (e.factors.Nonneg → inputs.Nonneg → 0 ≤ e.options.tolerance →
      e.checkTotals nl totals none = .ok ⟨e, totals, none, []⟩ ∧
      e.checkTotals nl totals (some inputs) = .ok ⟨e, totals, none, []⟩) := by
  have hsteady := h.steady
  have hbox : e.boxCost = totals.box := by rw [h.totals_eq]
  have hrecompute := hsteady.recomputeBoxCost_eq
  rw [hbox] at hrecompute
  have htiming := h.recomputeTiming_eq hlocal hsame
  refine ⟨hbox, hrecompute, ?_, htiming, fun hfactors hinputs htolerance => ?_⟩
  · obtain ⟨fresh, hfresh⟩ := hsteady.tracks.exists_ofFactors hsteady.room e.options
    exact ⟨fresh, hfresh, (hsteady.boxCost_fresh hfresh).trans hbox⟩
  · have hboxTotal : 0 ≤ totals.box := hbox ▸ hsteady.boxCost_nonneg hfactors
    have htimingTotal : 0 ≤ totals.timing := by
      rw [h.totals_eq]
      exact (h.timed hlocal).timingCost_nonneg hinputs hsame
    exact ⟨checkTotals_eq hrecompute (by simp) hboxTotal htimingTotal htolerance,
      checkTotals_eq hrecompute (fun _ heq => Option.some.inj heq ▸ htiming) hboxTotal htimingTotal
        htolerance⟩

end Engine

/-! ## A small run -/

theorem Sample.nonneg_timing : timing.Nonneg where
  delay nl n sink delay h := by
    obtain ⟨ends, -, h⟩ := manhattan_eq_ok.1 h
    obtain ⟨columns, hcolumns, h⟩ := Checked.bind_eq_ok.1 h
    obtain ⟨rows, hrows, h⟩ := Checked.bind_eq_ok.1 h
    obtain ⟨tiles, htiles, h⟩ := Checked.bind_eq_ok.1 h
    obtain ⟨layers, hlayers, h⟩ := Checked.bind_eq_ok.1 h
    obtain ⟨-, rfl⟩ := Word.int32_eq_ok.1 htiles
    cases h
    have htiles : (0 : Rat) ≤ ((columns + rows : Int) : Rat) :=
      Int.cast_nonneg (Int.add_nonneg (gap_nonneg hcolumns) (gap_nonneg hrows))
    have hlayers : (0 : Rat) ≤ (layers : Rat) := Int.cast_nonneg (gap_nonneg hlayers)
    change (0 : Rat) ≤ 1 + 2 * ((columns + rows : Int) : Rat) + 3 * (layers : Rat)
    positivity
  criticality n sink weight h := by
    -- every criticality is one half
    obtain ⟨slot, -, h⟩ := Checked.bind_eq_ok.1 h
    have hmem := Array.mem_of_getElem? (entry_eq_ok.1 h)
    obtain ⟨-, rfl⟩ := Array.mem_replicate.1 hmem
    change (0 : Rat) ≤ 1 / 2
    decide +kernel

namespace Engine

/-- In the small run the box gets narrower by one column, and a check finds both totals right. -/
theorem totals_never_drift_small :
    (⟨Sample.moved.boxCost, 3 / 2⟩ : Totals Rat) =
      (⟨Sample.timed.1.boxCost, Sample.timed.2⟩ : Totals Rat).apply Sample.tried.2 ∧
    Sample.moved.checkTotals Sample.placed ⟨Sample.moved.boxCost, 3 / 2⟩ (some Sample.timing) =
      .ok ⟨Sample.moved, ⟨Sample.moved.boxCost, 3 / 2⟩, none, []⟩ := by
  have hbox : Sample.moved.boxCost = Sample.timed.1.boxCost + Sample.tried.2.boxDelta := by
    decide +kernel
  have htiming : (3 / 2 : Rat) = Sample.timed.2 + Sample.tried.2.timingDelta := by decide +kernel
  have htotals : (⟨Sample.moved.boxCost, 3 / 2⟩ : Totals Rat) =
      (⟨Sample.timed.1.boxCost, Sample.timed.2⟩ : Totals Rat).apply Sample.tried.2 := by
    rw [Totals.apply, ← hbox, ← htiming]
  obtain ⟨-, -, -, -, hcheck⟩ :=
    totals_never_drift (isLocal_manhattan _) Sample.timedRun_moved fun _ _ => eq_of_beq
  rw [← htotals] at hcheck
  obtain ⟨-, h⟩ := hcheck ⟨by decide +kernel, by decide +kernel⟩ Sample.nonneg_timing
    (by decide +kernel)
  exact ⟨htotals, h⟩

end Engine

end WireCost
