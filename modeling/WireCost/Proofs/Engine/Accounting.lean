import Mathlib.Data.List.Induction
import WireCost.Proofs.Engine.Frame
import WireCost.Proofs.Netlist.Consistent

/-! # What an evaluation accounts for

* **`Engine.touchedNets`** — the nets that visits touch, each once, in the order of the first touch.
* **`Engine.Idle`** — no net and no connection is marked, as between two moves.
* **`Engine.Evaluated`** — what an evaluation leaves behind.
* **`Engine.evaluated_of_evaluate`** — every evaluation of an idle engine leaves that behind.
* **`Engine.accepted_of_commit`**, **`Engine.rollback_eq_ok`** — what ending the move does to every
  net. -/

namespace WireCost.Engine

variable {δ α : Type} {e e₀ e' : Engine δ α} {nl : Netlist} {n : NetId} {r : Relocation} {p : PinId}
  {visits done : List (Relocation × PinId)} {touched : List NetId}

/-! ## Touched nets -/

/-- **The nets that visits touch,** each once, in the order of the first touch. -/
def touchedNets (e : Engine δ α) (nl : Netlist) (visits : List (Relocation × PinId)) :
    List NetId :=
  (visits.filterMap fun v => e.visitedNet nl v.2).eraseDups

/-- A touched net is one that some visit visits. -/
theorem mem_touchedNets :
    n ∈ e.touchedNets nl visits ↔ ∃ v ∈ visits, e.visitedNet nl v.2 = some n := by
  rw [touchedNets, List.mem_eraseDups, List.mem_filterMap]

/-- A touched net is not ignored. -/
theorem ignored_of_touched {i : Nat} {s : NetState α}
    (hi : i ∈ (e.touchedNets nl visits).map NetId.toNat) (hs : e.nets[i]? = some s) :
    s.ignored = false := by
  obtain ⟨n, hn, rfl⟩ := List.mem_map.1 hi
  obtain ⟨v, -, hv⟩ := mem_touchedNets.1 hn
  obtain ⟨-, s', hs', hcounted⟩ := visitedNet_eq_some.1 hv
  obtain rfl := Option.some.inj (hs.symm.trans hs')
  exact hcounted

/-- One more visit that touches nothing. -/
theorem touchedNets_concat_none (h : e.visitedNet nl p = none) :
    e.touchedNets nl (done ++ [(r, p)]) = e.touchedNets nl done := by
  simp [touchedNets, h]

/-- One more visit lists its net, unless it is listed already. -/
theorem touchedNets_concat_some (h : e.visitedNet nl p = some n) :
    e.touchedNets nl (done ++ [(r, p)]) = if n ∈ e.touchedNets nl done then e.touchedNets nl done
      else e.touchedNets nl done ++ [n] := by
  simp only [touchedNets, List.filterMap_append, List.filterMap_cons, h, List.filterMap_nil,
    List.eraseDups_append, List.mem_eraseDups]
  split <;> rename_i hmem
  · simp [List.removeAll, hmem]
  · simp [List.removeAll, hmem, List.eraseDups_cons]

theorem nodup_touchedNets (e : Engine δ α) (nl : Netlist) (visits : List (Relocation × PinId)) :
    (e.touchedNets nl visits).Nodup := by
  induction visits using List.reverseRecOn with
  | nil => exact List.nodup_nil
  | append_singleton done v ih =>
    obtain ⟨r, p⟩ := v
    cases hv : e.visitedNet nl p with
    | none => rwa [touchedNets_concat_none hv]
    | some n =>
      rw [touchedNets_concat_some hv]
      split
      · exact ih
      · rename_i hn
        -- a net is appended only if it is not listed yet
        rw [← List.concat_eq_append]
        exact ih.concat hn

/-! ## Marks -/

/-- **Nothing is marked,** as between two moves. -/
structure Idle (e : Engine δ α) : Prop where
  pending : e.pending = false
  nets : ∀ (i : Nat) (s : NetState α), e.nets[i]? = some s →
    s.proposed = none ∧ s.update = .untouched
  connections : e.connections.touched = #[]

/-- In the middle of an evaluation that started at `e₀`, the nets in `touched` are marked, and
nothing has happened to the others. -/
structure Marks (e₀ : Engine δ α) (touched : List NetId) (e : Engine δ α) : Prop where
  same : SameCommitted e₀ e
  pending : e.pending = true
  affected : e.affected = touched
  marked : ∀ (i : Nat) (s : NetState α), e.nets[i]? = some s → i ∈ touched.map NetId.toNat →
    s.proposed.isSome ∧ s.update ≠ .untouched
  nets : ∀ i : Nat, i ∉ touched.map NetId.toNat → e.nets[i]? = e₀.nets[i]?
  proposed : ∀ i : Nat, i ∉ touched.map NetId.toNat →
    e.geometry.proposed[i]? = e₀.geometry.proposed[i]?

section

variable [CostScalar α] [DelayScalar δ α] {m : Move} {timing : Option (TimingInputs δ)}
  {delta delta' : α}

/-- **A visit keeps the marks.** -/
theorem Marks.visit (h : Marks e₀ (e₀.touchedNets nl done) e) (hidle : e₀.Idle)
    (hvisit : Visited nl m timing r p e delta e' delta') :
    Marks e₀ (e₀.touchedNets nl (done ++ [(r, p)])) e' := by
  have hsame := h.same.trans hvisit.sameCommitted
  obtain ⟨hnone, rfl⟩ | ⟨n, s, cost, update, hsome, hupdate, honly, haffected⟩ := hvisit.effect
  · -- the pin is passed over
    rw [h.same.visitedNet_eq] at hnone
    rw [touchedNets_concat_none hnone]
    exact h
  · rw [h.same.visitedNet_eq] at hsome
    -- the net has a proposed cost exactly if it is listed
    have hlisted : s.proposed.isSome ↔ n ∈ e₀.touchedNets nl done := by
      constructor
      · intro hs
        by_contra hn
        rw [← NetId.toNat_mem_map] at hn
        have hold := (h.nets n.toNat hn).symm.trans honly.old
        rw [(hidle.nets n.toNat s hold).1] at hs
        cases hs
      · intro hn
        exact (h.marked n.toNat s honly.old (NetId.toNat_mem_map.2 hn)).1
    rw [touchedNets_concat_some hsome]
    -- whether it is listed before or only now, the marked nets are the old ones and this one
    have hmem : ∀ i : Nat, i ∈ (if n ∈ e₀.touchedNets nl done then e₀.touchedNets nl done
        else e₀.touchedNets nl done ++ [n]).map NetId.toNat ↔
        n.toNat = i ∨ i ∈ (e₀.touchedNets nl done).map NetId.toNat := by
      intro i
      split
      · rename_i hn
        refine (or_iff_right_of_imp ?_).symm
        rintro rfl
        exact NetId.toNat_mem_map.2 hn
      · exact NetId.mem_map_concat
    refine ⟨hsame, honly.pending.trans h.pending, ?_, ?_, ?_, ?_⟩
    · rw [haffected, h.affected]
      simp only [hlisted]
    · intro i s' hs' hi
      rw [hmem] at hi
      by_cases hn : n.toNat = i
      · subst hn
        obtain rfl : _ = s' := Option.some.inj (honly.new.symm.trans hs')
        exact ⟨rfl, hupdate⟩
      · rw [honly.nets i hn] at hs'
        exact h.marked i s' hs' (hi.resolve_left hn)
    · intro i hi
      rw [hmem, not_or] at hi
      rw [honly.nets i hi.1, h.nets i hi.2]
    · intro i hi
      rw [hmem, not_or] at hi
      rw [honly.proposed i hi.1, h.proposed i hi.2]

/-- **All visits together** mark exactly the nets that they touch. -/
theorem marks_of_visits (hidle : e₀.Idle)
    (h : visits.foldlM (fun s v => Engine.visit nl m timing v.1 s v.2)
      ({ e₀ with pending := true, affected := [] }, delta) = .ok (e, delta')) :
    Marks e₀ (e₀.touchedNets nl visits) e := by
  refine Checked.foldlM_induct (c := (e, delta'))
    (fun done s => Marks e₀ (e₀.touchedNets nl done) s.1) ?_ ?_ h
  · refine ⟨⟨rfl, rfl, rfl, rfl, rfl, rfl, rfl, rfl, .refl _⟩, rfl, rfl, ?_, fun _ _ => rfl,
      fun _ _ => rfl⟩
    intro i s _ hi
    cases hi
  · intro done v _ s s' _ hs hstep
    exact hs.visit hidle (visit_eq_ok.1 hstep)

end

/-! ## Costs -/

section

variable [CostScalar α]

/-- What a net costs before the pending move. -/
def costBefore (e : Engine δ α) (n : NetId) : α :=
  match e.nets[n.toNat]? with
  | some s => s.cost
  | none => zero

theorem costBefore_eq {s : NetState α} (hs : e.nets[n.toNat]? = some s) :
    e.costBefore n = s.cost := by
  rw [costBefore, hs]

/-- What a net costs with its proposed geometry. -/
def costAfter (e : Engine δ α) (n : NetId) : α :=
  match e.geometry.proposedCost e.factors n with
  | .ok cost => cost
  | .error _ => zero

/-- The proposed geometry of a net has a cost, and it passes its check. -/
structure Proposes (e : Engine δ α) (n : NetId) (g : Geometry) (cost : α) : Prop where
  geometry : e.geometry.proposed[n.toNat]? = some g
  cost : g.cost e.form e.factors = .ok cost
  check : e.checkProposed n g = .ok ()

theorem Proposes.costAfter_eq {g : Geometry} {cost : α} (h : e.Proposes n g cost) :
    e.costAfter n = cost := by
  have hform : g.cost e.geometry.form e.factors = .ok cost := h.cost
  rw [costAfter, GeometryTable.proposedCost, GeometryTable.proposedOf, entry_of_some h.geometry,
    Checked.ok_bind, hform]

/-- Costing a net reads its proposed geometry and notes the cost. -/
theorem recost_eq_ok {delta delta' : α} : recost (e, delta) n = .ok (e', delta') ↔
    ∃ g cost s, e.Proposes n g cost ∧ e.nets[n.toNat]? = some s ∧
      e.updateNet n (fun s => { s with proposed := some cost }) = e' ∧
      delta + (cost - s.cost) = delta' := by
  simp only [recost, GeometryTable.proposedOf, stateOf, Checked.bind_eq_ok, entry_eq_ok,
    Except.ok.injEq, Prod.mk.injEq]
  constructor
  · rintro ⟨g, hg, cost, hcost, s, hs, ⟨⟩, hcheck, heq, hdelta⟩
    exact ⟨g, cost, s, ⟨hg, hcost, hcheck⟩, hs, heq, hdelta⟩
  · rintro ⟨g, cost, s, ⟨hg, hcost, hcheck⟩, hs, heq, hdelta⟩
    exact ⟨g, hg, cost, hcost, s, hs, (), hcheck, heq, hdelta⟩

/-- In the middle of costing the touched nets of `e₁`, those in `done` have a proposed cost, and the
total is the sum of their changes. -/
structure Costed (e₁ : Engine δ α) (done : List NetId) (e : Engine δ α) (delta : α) : Prop where
  same : e = { e₁ with nets := e.nets }
  costs : SameCommitted e₁ e
  costed : ∀ n ∈ done, ∃ g s cost, e₁.Proposes n g cost ∧ e₁.nets[n.toNat]? = some s ∧
    e.nets[n.toNat]? = some { s with proposed := some cost }
  others : ∀ i : Nat, i ∉ done.map NetId.toNat → e.nets[i]? = e₁.nets[i]?
  delta : delta = (done.map fun n => e₁.costAfter n - e₁.costBefore n).foldl (· + ·) zero

/-- **Costing one more net** keeps that. -/
theorem Costed.recost {e₁ : Engine δ α} {done : List NetId} {delta delta' : α}
    (h : Costed e₁ done e delta) (hstep : recost (e, delta) n = .ok (e', delta')) :
    Costed e₁ (done ++ [n]) e' delta' := by
  obtain ⟨g, cost, s, hproposes, hs, rfl, rfl⟩ := recost_eq_ok.1 hstep
  have hproposes₁ : e₁.Proposes n g cost := by
    obtain ⟨hg, hcost, hcheck⟩ := hproposes
    rw [h.same] at hg hcost hcheck
    exact ⟨hg, hcost, hcheck⟩
  -- costing writes proposed costs only, so the committed cost is still the one of `e₁`
  obtain ⟨s₁, hs₁, hsame, -⟩ := h.costs.net hs
  -- the state of the net is known up to its proposed cost
  have hupdated : ∀ cost',
      { s with proposed := some cost' } = { s₁ with proposed := some cost' } := by
    intro cost'
    by_cases hn : n ∈ done
    · obtain ⟨_, s₂, c, -, hs₂, hold⟩ := h.costed n hn
      obtain rfl : s₁ = s₂ := by simpa [hs₁] using hs₂
      obtain rfl : s = _ := Option.some.inj (hs.symm.trans hold)
      rfl
    · obtain rfl : s = s₁ := Option.some.inj
        (hs.symm.trans ((h.others _ (mt NetId.toNat_mem_map.1 hn)).trans hs₁))
      rfl
  refine ⟨?_, h.costs.trans (sameCommitted_updateNet e n fun _ => ⟨rfl, rfl⟩), ?_, ?_, ?_⟩
  · rw [h.same]
    rfl
  · intro n' hn'
    by_cases heq : n = n'
    · subst heq
      refine ⟨g, s₁, cost, hproposes₁, hs₁, ?_⟩
      rw [← hupdated]
      exact getElem?_modify_eq_some.2 ⟨s, hs, if_pos rfl⟩
    · have hdone : n' ∈ done := by simpa [Ne.symm heq] using hn'
      obtain ⟨g', s', cost', hp, hs', hnew⟩ := h.costed n' hdone
      refine ⟨g', s', cost', hp, hs', ?_⟩
      rw [updateNet, Array.getElem?_modify, if_neg (mt NetId.toNat_inj.1 heq), hnew]
  · intro i hi
    rw [NetId.mem_map_concat, not_or] at hi
    rw [updateNet, Array.getElem?_modify, if_neg hi.1, h.others i hi.2]
  · have hbefore : e₁.costBefore n = s.cost := by
      rw [costBefore_eq hs₁, hsame]
    rw [List.map_append, List.foldl_append, ← h.delta, List.map_singleton, List.foldl_cons,
      List.foldl_nil, hproposes₁.costAfter_eq, hbefore]

theorem costed_of_foldlM {e₁ : Engine δ α} {touched : List NetId} {delta : α}
    (h : touched.foldlM Engine.recost (e₁, zero) = .ok (e, delta)) :
    Costed e₁ touched e delta := by
  refine Checked.foldlM_induct (c := (e, delta)) (fun done s => Costed e₁ done s.1 s.2) ?_ ?_ h
  · refine ⟨rfl, .refl _, ?_, fun _ _ => rfl, rfl⟩
    intro n hn
    cases hn
  · intro done n _ s s' _ hs hstep
    exact hs.recost hstep

end

/-! ## Evaluating -/

section

variable [CostScalar α] {m : Move} {o : Outcome α}

/-- **What an evaluation of a move leaves behind.** The committed tables stay. The nets that the
move touches are listed, marked and costed, and the change of the total is the sum of their
changes. -/
structure Evaluated (e₀ : Engine δ α) (nl : Netlist) (m : Move) (e : Engine δ α) (o : Outcome α) :
    Prop where
  applied : m.IsApplied nl
  same : SameCommitted e₀ e
  pending : e.pending = true
  affected : e.affected = e₀.touchedNets nl (nl.visits m)
  nets : ∀ i : Nat, i ∉ e.affected.map NetId.toNat → e.nets[i]? = e₀.nets[i]?
  proposed : ∀ i : Nat, i ∉ e.affected.map NetId.toNat →
    e.geometry.proposed[i]? = e₀.geometry.proposed[i]?
  costed : ∀ n ∈ e.affected, ∃ g s cost, e.Proposes n g cost ∧ e.nets[n.toNat]? = some s ∧
    s.proposed = some cost ∧ s.update ≠ .untouched
  netCount : o.nets = e.affected.length
  connectionCount : o.connections = e.connections.touched.size
  boxDelta : o.boxDelta =
    (e.affected.map fun n => e.costAfter n - e₀.costBefore n).foldl (· + ·) zero

variable [DelayScalar δ α] {timing : Option (TimingInputs δ)}

/-- How an evaluation proceeds: the visits, and then the costs of the touched nets. -/
theorem evaluate_eq_ok : e₀.evaluate nl m timing = .ok (e', o) ↔
    e₀.pending = false ∧ m.IsApplied nl ∧ ∃ e₁ timingDelta boxDelta,
      (nl.visits m).foldlM (fun s v => visit nl m timing v.1 s v.2)
        ({ e₀ with pending := true, affected := [] }, zero) = .ok (e₁, timingDelta) ∧
      e₁.affected.foldlM recost (e₁, zero) = .ok (e', boxDelta) ∧
      o = ⟨boxDelta, timingDelta, e'.affected.length, e'.connections.touched.size⟩ := by
  simp only [evaluate, Checked.bind_eq_ok, require_eq_ok, foldlM_visitBlock, Except.ok.injEq,
    Prod.mk.injEq, Bool.not_eq_true]
  constructor
  · rintro ⟨-, hidle, ⟨e₁, timingDelta⟩, ⟨happlied, hvisits⟩, ⟨e₂, boxDelta⟩, hrecost, rfl, rfl⟩
    exact ⟨hidle, happlied, e₁, timingDelta, boxDelta, hvisits, hrecost, rfl⟩
  · rintro ⟨hidle, happlied, e₁, timingDelta, boxDelta, hvisits, hrecost, rfl⟩
    exact ⟨(), hidle, (e₁, timingDelta), ⟨happlied, hvisits⟩, (e', boxDelta), hrecost, rfl, rfl⟩

/-- **Every evaluation of an idle engine** leaves that behind. -/
theorem evaluated_of_evaluate (hidle : e₀.Idle) (h : e₀.evaluate nl m timing = .ok (e', o)) :
    Evaluated e₀ nl m e' o := by
  obtain ⟨-, happlied, e₁, timingDelta, boxDelta, hvisits, hrecost, rfl⟩ := evaluate_eq_ok.1 h
  have hmarks := marks_of_visits hidle hvisits
  have hcosted := costed_of_foldlM hrecost
  have haffected : e'.affected = e₁.affected := by rw [hcosted.same]
  -- the visits change no committed cost, and the costing no proposed geometry
  have hbefore : ∀ n, e₁.costBefore n = e₀.costBefore n := by
    intro n
    unfold costBefore
    cases hs : e₀.nets[n.toNat]? with
    | none =>
      have hnone : e₁.nets[n.toNat]? = none := by
        rw [Array.getElem?_eq_none_iff] at hs ⊢
        rwa [hmarks.same.nets_size]
      rw [hnone]
    | some s =>
      obtain ⟨s', hs', hcost, -⟩ := hmarks.same.net' hs
      rw [hs']
      exact hcost
  have hafter : ∀ n, e'.costAfter n = e₁.costAfter n := by
    intro n
    rw [hcosted.same]
    rfl
  refine ⟨happlied, hmarks.same.trans hcosted.costs, ?_, ?_, ?_, ?_, ?_, rfl, rfl, ?_⟩
  · rw [hcosted.same]
    exact hmarks.pending
  · rw [haffected, hmarks.affected]
  · intro i hi
    rw [haffected] at hi
    rw [hcosted.others i hi]
    exact hmarks.nets i (hmarks.affected ▸ hi)
  · intro i hi
    rw [haffected] at hi
    rw [hcosted.same]
    exact hmarks.proposed i (hmarks.affected ▸ hi)
  · intro n hn
    rw [haffected] at hn
    obtain ⟨g, s, cost, ⟨hg, hcost, hcheck⟩, hs, hs'⟩ := hcosted.costed n hn
    have hmarked := hmarks.marked n.toNat s hs (hmarks.affected ▸ NetId.toNat_mem_map.2 hn)
    refine ⟨g, _, cost, ?_, hs', rfl, hmarked.2⟩
    rw [hcosted.same]
    exact ⟨hg, hcost, hcheck⟩
  · rw [haffected]
    dsimp only
    rw [hcosted.delta]
    simp only [hafter, hbefore]

end

/-! ## Ending the move -/

/-- Changing the states of several nets, where changing one twice is changing it once. -/
theorem getElem?_foldl_updateNet {f : NetState α → NetState α} (hf : ∀ s, f (f s) = f s)
    (ns : List NetId) (e : Engine δ α) (i : Nat) :
    (ns.foldl (fun e n => e.updateNet n f) e).nets[i]? =
      if i ∈ ns.map NetId.toNat then e.nets[i]?.map f else e.nets[i]? := by
  induction ns generalizing e with
  | nil => rfl
  | cons n ns ih =>
    rw [List.foldl_cons, ih, updateNet, Array.getElem?_modify]
    by_cases hn : n.toNat = i
    · simp only [hn, if_true, List.map_cons, List.mem_cons, true_or]
      cases e.nets[i]? with
      | none => simp
      | some s => simp [hf]
    · simp [hn, Ne.symm hn]

/-- **Discarding a move** takes all marks away and leaves the rest as it is. -/
theorem rollback_eq_ok : e.rollback = .ok e' ↔ e.pending = true ∧ e' = { e with
    nets := (e.affected.foldl (fun e n => e.updateNet n NetState.discard) e).nets
    connections := e.connections.rollback
    pending := false } := by
  have hsame : ∀ (ns : List NetId) (e : Engine δ α),
      ns.foldl (fun e n => e.updateNet n NetState.discard) e = { e with
        nets := (ns.foldl (fun e n => e.updateNet n NetState.discard) e).nets } := by
    intro ns
    induction ns with
    | nil => exact fun e => rfl
    | cons n ns ih =>
      intro e
      rw [List.foldl_cons, ih]
      rfl
  simp only [rollback, Checked.bind_eq_ok, require_eq_ok, Except.ok.injEq]
  rw [hsame]
  constructor
  · rintro ⟨-, hpending, rfl⟩
    exact ⟨hpending, rfl⟩
  · rintro ⟨hpending, rfl⟩
    exact ⟨(), hpending, rfl⟩

/-- In the middle of accepting a move, the nets in `done` have taken over what was proposed for
them, and nothing has happened to the others. -/
structure Accepting (e : Engine δ α) (done : List NetId) (e' : Engine δ α) : Prop where
  rest : e' = { e with
    geometry := { e.geometry with committed := e'.geometry.committed }
    nets := e'.nets }
  geometriesSize : e'.geometry.committed.size = e.geometry.committed.size
  netsSize : e'.nets.size = e.nets.size
  geometries : ∀ i : Nat, e'.geometry.committed[i]? =
    if i ∈ done.map NetId.toNat then e.geometry.proposed[i]? else e.geometry.committed[i]?
  nets : ∀ i : Nat, e'.nets[i]? =
    if i ∈ done.map NetId.toNat then e.nets[i]?.map NetState.accept else e.nets[i]?

theorem commitNet_eq_ok : e.commitNet n = .ok e' ↔ ∃ g, e.geometry.proposed[n.toNat]? = some g ∧
    { e with geometry := e.geometry.withCommitted n g }.updateNet n NetState.accept = e' := by
  simp only [commitNet, Checked.bind_eq_ok, GeometryTable.commit_eq_ok, Except.ok.injEq]
  constructor
  · rintro ⟨_, ⟨g, hg, rfl⟩, h⟩
    exact ⟨g, hg, h⟩
  · rintro ⟨g, hg, h⟩
    exact ⟨_, ⟨g, hg, rfl⟩, h⟩

/-- **One more net** takes over what was proposed for it. -/
theorem Accepting.commitNet {e₁ : Engine δ α} {done : List NetId} (h : Accepting e done e₁)
    (hsize : e.geometry.proposed.size = e.geometry.committed.size)
    (hstep : e₁.commitNet n = .ok e') : Accepting e (done ++ [n]) e' := by
  obtain ⟨g, hg, rfl⟩ := commitNet_eq_ok.1 hstep
  have hproposed : e₁.geometry.proposed = e.geometry.proposed := by rw [h.rest]
  rw [hproposed] at hg
  -- the two sides of the table have the same size, so the net is on the committed one as well
  have hlt : n.toNat < e₁.geometry.committed.size := by
    have hold := (Array.getElem?_eq_some_iff.1 hg).1
    have hsome : e₁.geometry.committed[n.toNat]?.isSome := by
      rw [h.geometries]
      split
      · rw [hg]
        rfl
      · rw [Array.getElem?_eq_getElem (hsize ▸ hold)]
        rfl
    obtain ⟨g', hg'⟩ := Option.isSome_iff_exists.1 hsome
    exact (Array.getElem?_eq_some_iff.1 hg').1
  refine ⟨?_, ?_, ?_, ?_, ?_⟩
  · rw [h.rest]
    rfl
  · exact Array.size_setIfInBounds.trans h.geometriesSize
  · exact Array.size_modify.trans h.netsSize
  · intro i
    simp only [updateNet, GeometryTable.withCommitted, Array.getElem?_setIfInBounds,
      NetId.mem_map_concat]
    by_cases hn : n.toNat = i
    · subst hn
      simp [hlt, hg]
    · simp [hn, h.geometries]
  · intro i
    simp only [updateNet, Array.getElem?_modify, NetId.mem_map_concat]
    by_cases hn : n.toNat = i
    · subst hn
      rw [if_pos rfl, h.nets]
      split
      · -- accepting twice is accepting once
        cases e.nets[n.toNat]? with
        | none => simp
        | some s => simp [NetState.accept]
      · simp
    · simp [hn, h.nets]

/-- **What accepting a move does:** the touched nets take over what was proposed for them, and so do
the touched connections. -/
structure Accepted (e e' : Engine δ α) : Prop where
  rest : e' = { e with
    geometry := { e.geometry with committed := e'.geometry.committed }
    nets := e'.nets
    connections := e.connections.commit
    pending := false }
  pending : e.pending = true
  geometriesSize : e'.geometry.committed.size = e.geometry.committed.size
  netsSize : e'.nets.size = e.nets.size
  geometries : ∀ i : Nat, e'.geometry.committed[i]? =
    if i ∈ e.affected.map NetId.toNat then e.geometry.proposed[i]? else e.geometry.committed[i]?
  nets : ∀ i : Nat, e'.nets[i]? =
    if i ∈ e.affected.map NetId.toNat then e.nets[i]?.map NetState.accept else e.nets[i]?

theorem Accepted.setup (h : Accepted e e') : SameSetup e e' := by
  rw [h.rest]
  exact ⟨rfl, rfl, rfl, rfl⟩

/-- After a commit no move is pending. -/
theorem Accepted.idle (h : Accepted e e') : e'.pending = false := by rw [h.rest]

/-- A commit commits the timings as well. -/
theorem Accepted.connections (h : Accepted e e') : e'.connections = e.connections.commit := by
  rw [h.rest]

/-- Accepting a move ignores the same nets. -/
theorem Accepted.net (h : Accepted e e') {i : Nat} {s' : NetState α}
    (hs' : e'.nets[i]? = some s') : ∃ s, e.nets[i]? = some s ∧ s'.ignored = s.ignored := by
  rw [h.nets] at hs'
  split at hs'
  · obtain ⟨s, hs, rfl⟩ := Option.map_eq_some_iff.1 hs'
    exact ⟨s, hs, rfl⟩
  · exact ⟨s', hs', rfl⟩

theorem Accepting.start (e : Engine δ α) : Accepting e [] e :=
  ⟨rfl, rfl, rfl, fun _ => rfl, fun _ => rfl⟩

theorem Accepting.accepted {e₁ : Engine δ α} (h : Accepting e e.affected e₁)
    (hpending : e.pending = true) :
    Accepted e { e₁ with connections := e₁.connections.commit, pending := false } := by
  refine ⟨?_, hpending, h.geometriesSize, h.netsSize, h.geometries, h.nets⟩
  rw [h.rest]

/-- A commit that succeeds accepts the move. -/
theorem accepted_of_commit (hsize : e.geometry.proposed.size = e.geometry.committed.size)
    (h : e.commit = .ok e') : Accepted e e' := by
  simp only [commit, Checked.bind_eq_ok, require_eq_ok, Except.ok.injEq] at h
  obtain ⟨-, hpending, e₁, hloop, rfl⟩ := h
  refine Accepting.accepted (Checked.foldlM_induct (Accepting e) (.start e) ?_ hloop) hpending
  intro done n _ s s' _ hs hstep
  exact hs.commitNet hsize hstep

/-- **A commit succeeds** while a move is pending whose nets have proposed geometries. -/
theorem exists_commit (hsize : e.geometry.proposed.size = e.geometry.committed.size)
    (hpending : e.pending = true)
    (hin : ∀ n ∈ e.affected, n.toNat < e.geometry.proposed.size) : ∃ e', e.commit = .ok e' := by
  obtain ⟨e₁, hloop, -⟩ := Checked.foldlM_progress (f := Engine.commitNet) (l := e.affected)
    (b := e) (Accepting e) (.start e) (by
      intro done n rest s hl hs
      have hproposed : s.geometry.proposed = e.geometry.proposed := by rw [hs.rest]
      have hlt : n.toNat < s.geometry.proposed.size := by
        rw [hproposed]
        exact hin n (by simp [hl])
      have hstep := commitNet_eq_ok.2 ⟨_, Array.getElem?_eq_getElem hlt, rfl⟩
      exact ⟨_, hstep, hs.commitNet hsize hstep⟩)
  refine ⟨{ e₁ with connections := e₁.connections.commit, pending := false }, ?_⟩
  rw [commit, require_of hpending, Checked.ok_bind, hloop, Checked.ok_bind]

end WireCost.Engine
