import WireCost.Proofs.Engine.Reachable

/-! # Moves as transactions

* **`Engine.netCost`** — the committed cost of a net.
* **`Engine.evaluate_accounts_once`** — an evaluation accounts for every net that the move touches
  exactly once, and a commit after it changes exactly these nets. -/

namespace WireCost.Engine

variable {δ α : Type} {e e' : Engine δ α} {nl : Netlist} {m : Move}
  {timing : Option (TimingInputs δ)} {o : Outcome α} {n : NetId}

/-- The committed cost of a net. -/
def netCost (e : Engine δ α) (n : NetId) : Checked α := do .ok (← e.stateOf n).cost

theorem netCost_of_some {s : NetState α} (hs : e.nets[n.toNat]? = some s) :
    e.netCost n = .ok s.cost := by
  rw [netCost, stateOf, entry_of_some hs, Checked.ok_bind]

/-- The nets that a move touches own a pin of a relocated block, and they are not ignored. -/
theorem mem_touchedNets_visits : n ∈ e.touchedNets nl (nl.visits m) ↔
    (∃ s, e.nets[n.toNat]? = some s ∧ s.ignored = false) ∧
      ∃ r ∈ m.relocations, ∃ p ∈ nl.pinsOf r.block, ∃ pin, nl.pins[p.toNat]? = some pin ∧
        pin.net = some n := by
  simp only [mem_touchedNets, Netlist.visits, List.mem_flatMap, List.mem_map, visitedNet_eq_some]
  constructor
  · rintro ⟨_, ⟨r, hr, p, hp, rfl⟩, hpin, hs⟩
    exact ⟨hs, r, hr, p, hp, hpin⟩
  · rintro ⟨hs, r, hr, p, hp, hpin⟩
    exact ⟨(r, p), ⟨r, hr, p, hp, rfl⟩, hpin, hs⟩

variable [CostScalar α] [DelayScalar δ α]

/-- **An evaluation accounts for every touched net exactly once.** It lists the nets that are not
ignored and own a pin of a relocated block, each once and in the order of their first pin, and the
change of the total is the sum, in that order, of what each of them costs with its proposed geometry
less what it costs so far. It changes nothing about the other nets. A commit then makes these
costs and geometries the committed ones, and leaves all other nets as they were. -/
theorem evaluate_accounts_once (he : e.Reachable)
    (heval : e.evaluate nl m timing = .ok (e', o)) :
    e'.affected.Nodup ∧
    e'.affected = ((m.relocations.flatMap fun r => nl.pinsOf r.block).filterMap
      (e.visitedNet nl)).eraseDups ∧
    (∀ n, n ∈ e'.affected ↔ (∃ s, e.nets[n.toNat]? = some s ∧ s.ignored = false) ∧
      ∃ r ∈ m.relocations, ∃ p ∈ nl.pinsOf r.block, ∃ pin, nl.pins[p.toNat]? = some pin ∧
        pin.net = some n) ∧
    o.nets = e'.affected.length ∧
    (∀ i : Nat, i ∉ e'.affected.map NetId.toNat → e'.nets[i]? = e.nets[i]? ∧
      e'.geometry.proposed[i]? = e.geometry.proposed[i]?) ∧
    ∃ before after : NetId → α,
      (∀ n ∈ e'.affected, e.netCost n = .ok (before n) ∧ e'.netCost n = .ok (before n) ∧
        e'.geometry.proposedCost e'.factors n = .ok (after n)) ∧
      o.boxDelta = (e'.affected.map fun n => after n - before n).foldl (· + ·) zero ∧
      ∃ e'', e'.commit = .ok e'' ∧
        (∀ n ∈ e'.affected, e''.netCost n = .ok (after n) ∧
          ∃ g, e'.geometry.proposedOf n = .ok g ∧ e''.geometry.committedOf n = .ok g) ∧
        ∀ i : Nat, i ∉ e'.affected.map NetId.toNat → e''.nets[i]? = e.nets[i]? ∧
          e''.geometry.committed[i]? = e.geometry.committed[i]? := by
  have horderly := he.orderly
  have hdone := horderly.evaluated heval
  have horderly' := horderly.evaluate heval
  have hlisted := horderly'.listed hdone.pending
  -- the list of touched nets, as one walk over the pins of the relocated blocks
  have hwalk : e'.affected = ((m.relocations.flatMap fun r => nl.pinsOf r.block).filterMap
      (e.visitedNet nl)).eraseDups := by
    rw [hdone.affected, touchedNets, Netlist.visits, List.filterMap_flatMap, List.filterMap_flatMap]
    simp only [List.filterMap_map]
    rfl
  -- the state of a touched net before and after, and what is proposed for it
  have hnet : ∀ n ∈ e'.affected, ∃ g s s', e'.Proposes n g (e'.costAfter n) ∧
      e.nets[n.toNat]? = some s ∧ e'.nets[n.toNat]? = some s' ∧ s'.cost = s.cost ∧
      e.costBefore n = s.cost ∧ s'.proposed = some (e'.costAfter n) := by
    intro n hn
    obtain ⟨g, s', cost, hproposes, hs', hcost, -⟩ := hdone.costed n hn
    obtain ⟨s, hs, hsame, -⟩ := hdone.same.net hs'
    refine ⟨g, s, s', by rwa [hproposes.costAfter_eq], hs, hs', hsame, by rw [costBefore, hs], ?_⟩
    rw [hcost, hproposes.costAfter_eq]
  obtain ⟨e'', hcommit⟩ := horderly'.exists_commit hdone.pending
  have haccepted := horderly'.accepted hcommit
  refine ⟨hlisted.1, hwalk, fun n => by rw [hdone.affected, mem_touchedNets_visits],
    hdone.netCount, fun i hi => ⟨hdone.nets i hi, hdone.proposed i hi⟩, e.costBefore, e'.costAfter,
    ?_, hdone.boxDelta, e'', hcommit, ?_, ?_⟩
  · intro n hn
    obtain ⟨g, s, s', hproposes, hs, hs', hsame, hbefore, -⟩ := hnet n hn
    refine ⟨by rw [hbefore, netCost_of_some hs], by rw [hbefore, ← hsame, netCost_of_some hs'], ?_⟩
    rw [GeometryTable.proposedCost, GeometryTable.proposedOf, entry_of_some hproposes.geometry,
      Checked.ok_bind]
    exact hproposes.cost
  · intro n hn
    obtain ⟨g, s, s', hproposes, hs, hs', hsame, hbefore, hproposed⟩ := hnet n hn
    have hn' := NetId.toNat_mem_map.2 hn
    constructor
    · have hstate := haccepted.nets n.toNat
      rw [if_pos hn', hs', Option.map_some] at hstate
      rw [netCost_of_some hstate, NetState.accept, hproposed]
      rfl
    · have hgeometry := haccepted.geometries n.toNat
      rw [if_pos hn', hproposes.geometry] at hgeometry
      exact ⟨g, entry_of_some hproposes.geometry, entry_of_some hgeometry⟩
  · intro i hi
    rw [haccepted.nets, haccepted.geometries, if_neg hi, if_neg hi, hdone.nets i hi,
      hdone.same.geometries]
    exact ⟨rfl, rfl⟩

/-- The move of the second block touches the one net of the small engine, and a commit changes no
other net. -/
theorem evaluate_accounts_once_small : Sample.evaluated.1.affected = [⟨0⟩] ∧
    Sample.evaluated.2.nets = 1 ∧ Sample.evaluated.2.boxDelta = -1 ∧
    ∃ e'', Sample.evaluated.1.commit = .ok e'' ∧ ∀ i : Nat, i ≠ 0 →
      e''.nets[i]? = Sample.engine.nets[i]? := by
  have haffected : Sample.evaluated.1.affected = [⟨0⟩] := by decide +kernel
  obtain ⟨-, -, -, hnets, -, before, after, -, -, e'', hcommit, -, hothers⟩ :=
    evaluate_accounts_once Sample.reachable_engine Sample.evaluate_eq
  rw [haffected] at hnets hothers
  refine ⟨haffected, hnets, by decide +kernel, e'', hcommit, fun i hi => (hothers i ?_).1⟩
  simpa [NetId.toNat] using hi

end WireCost.Engine
