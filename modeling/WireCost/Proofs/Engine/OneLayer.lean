import WireCost.Proofs.Device
import WireCost.Proofs.Engine.Reachable
import WireCost.Proofs.Geometry.OneLayer

/-! # Both forms on one layer

On a device with one layer the form of the boxes makes no difference.

* **`NetState.UpTo`**, **`Outcome.UpTo`**, **`Answer.UpTo`**, … — what an engine holds or answers,
  up to which costs count as one number.
* **`Engine.BothForms`** — an engine of either form, with the same state.
* **`Engine.BothForms.run`** — every operation answers the same on both, and keeps them so.
* **`Engine.forms_agree_on_one_layer`** — so they stay in lockstep from the start on. -/

namespace WireCost

variable {δ α : Type}

/-! ## Up to numbers -/

section

variable {R : α → α → Prop}

/-- Two states of a net with the same costs. -/
structure NetState.UpTo (R : α → α → Prop) (s s' : NetState α) : Prop where
  cost : R s.cost s'.cost
  proposed : Option.Rel R s.proposed s'.proposed
  update : s'.update = s.update
  ignored : s'.ignored = s.ignored

/-- Two evaluations of a move with the same changes. -/
structure Outcome.UpTo (R : α → α → Prop) (o o' : Outcome α) : Prop where
  boxDelta : R o.boxDelta o'.boxDelta
  timingDelta : o'.timingDelta = o.timingDelta
  nets : o'.nets = o.nets
  connections : o'.connections = o.connections

/-- Two rebuilds with the same totals. -/
structure CostReport.UpTo (R : α → α → Prop) (r r' : CostReport α) : Prop where
  total : R r.total r'.total
  wirelength : Option.Rel R r.wirelength r'.wirelength

/-- Two pairs of the same running totals. -/
structure Totals.UpTo (R : α → α → Prop) (t t' : Totals α) : Prop where
  box : R t.box t'.box
  timing : R t.timing t'.timing

/-- Two drifts of one total by the same numbers. -/
structure Drift.UpTo (R : α → α → Prop) (d d' : Drift α) : Prop where
  kind : d'.kind = d.kind
  tracked : R d.tracked d'.tracked
  recomputed : R d.recomputed d'.recomputed

/-- Two findings that differ at most in the form that they name. -/
inductive Finding.UpTo (R : α → α → Prop) : Finding α → Finding α → Prop where
  | bareSpan (span : BareSpan) : UpTo R (.bareSpan span) (.bareSpan span)
  | boxForm (form form' : BoxForm) (nets layers : Nat) :
      UpTo R (.boxForm form nets layers) (.boxForm form' nets layers)
  | wirelength {length length' : α} (h : R length length') :
      UpTo R (.wirelength length) (.wirelength length')
  | drift {d d' : Drift α} (h : d.UpTo R d') (tolerance : α) :
      UpTo R (.drift d tolerance) (.drift d' tolerance)

/-- Two mismatches of one net. -/
inductive Mismatch.UpTo (R : α → α → Prop) : Mismatch α → Mismatch α → Prop where
  | moveIsPending : UpTo R .moveIsPending .moveIsPending
  | geometry (n : NetId) (committed scanned : Geometry) :
      UpTo R (.geometry n committed scanned) (.geometry n committed scanned)
  | cost (n : NetId) {committed committed' recomputed recomputed' : α}
      (hcommitted : R committed committed') (hrecomputed : R recomputed recomputed') :
      UpTo R (.cost n committed recomputed) (.cost n committed' recomputed')

namespace Engine

/-- Two answers to one question. -/
inductive Answer.UpTo (R : α → α → Prop) : Answer α → Answer α → Prop where
  | done : UpTo R .done .done
  | outcome {o o' : Outcome α} (h : o.UpTo R o') : UpTo R (.outcome o) (.outcome o')
  | report {r r' : CostReport α} {findings findings' : List (Finding α)} (h : r.UpTo R r')
      (hfindings : List.Forall₂ (Finding.UpTo R) findings findings') :
      UpTo R (.report r findings) (.report r' findings')
  | total {cost cost' : α} (h : R cost cost') : UpTo R (.total cost) (.total cost')
  | totals {t t' : Totals α} {drift drift' : Option (Drift α)}
      {findings findings' : List (Finding α)} (h : t.UpTo R t')
      (hdrift : Option.Rel (Drift.UpTo R) drift drift')
      (hfindings : List.Forall₂ (Finding.UpTo R) findings findings') :
      UpTo R (.totals t drift findings) (.totals t' drift' findings')
  | mismatch {found found' : Option (Mismatch α)} (h : Option.Rel (Mismatch.UpTo R) found found') :
      UpTo R (.mismatch found) (.mismatch found')

/-- Two questions that are the same up to the running totals that are to be checked. -/
inductive Operation.UpTo (R : α → α → Prop) : Operation δ α → Operation δ α → Prop where
  | same (op : Operation δ α) : UpTo R op op
  | checkTotals (nl : Netlist) {t t' : Totals α} (h : t.UpTo R t')
      (timing : Option (TimingInputs δ)) :
      UpTo R (.checkTotals nl t timing) (.checkTotals nl t' timing)

/-! ## Engines of both forms -/

/-- **An engine of either form** on a device with one layer, with the same state up to numbers. -/
structure BothForms (R : α → α → Prop) (e e' : Engine δ α) : Prop where
  same : e' = { e with geometry := e'.geometry, nets := e'.nets }
  layers : e.interior.layers = 1
  geometry : e.geometry.BothForms e'.geometry
  nets : ∀ i : Nat, Option.Rel (NetState.UpTo R) e.nets[i]? e'.nets[i]?

namespace BothForms

variable {R : α → α → Prop} {e e' : Engine δ α} {nl : Netlist} {n : NetId}

theorem options (h : BothForms R e e') : e'.options = e.options := by rw [h.same]

theorem interior (h : BothForms R e e') : e'.interior = e.interior := by rw [h.same]

theorem factors (h : BothForms R e e') : e'.factors = e.factors := by rw [h.same]

theorem pending (h : BothForms R e e') : e'.pending = e.pending := by rw [h.same]

theorem affected (h : BothForms R e e') : e'.affected = e.affected := by rw [h.same]

theorem connections (h : BothForms R e e') : e'.connections = e.connections := by rw [h.same]

theorem size (h : BothForms R e e') : e'.nets.size = e.nets.size := by
  -- a position is past the end of both arrays or of neither
  have hnone : ∀ i, e.nets.size ≤ i ↔ e'.nets.size ≤ i := by
    intro i
    rw [← Array.getElem?_eq_none_iff, ← Array.getElem?_eq_none_iff]
    have hi := h.nets i
    generalize e.nets[i]? = s at hi
    generalize e'.nets[i]? = s' at hi
    cases hi <;> simp
  exact le_antisymm ((hnone _).1 le_rfl) ((hnone _).2 le_rfl)

theorem netIds (h : BothForms R e e') : e'.netIds = e.netIds := by
  rw [Engine.netIds, Engine.netIds, h.size]

theorem countedNets (h : BothForms R e e') : e'.countedNets = e.countedNets := by
  rw [Engine.countedNets, Engine.countedNets, h.netIds]
  refine List.filter_congr fun n _ => ?_
  have hn := h.nets n.toNat
  generalize e.nets[n.toNat]? = s at hn
  generalize e'.nets[n.toNat]? = s' at hn
  cases hn with
  | none => rfl
  | some hs => simp [hs.ignored]

/-- The costs of all nets, one by one. -/
theorem costs (h : BothForms R e e') :
    List.Forall₂ R (e.nets.toList.map (·.cost)) (e'.nets.toList.map (·.cost)) := by
  rw [List.forall₂_map_left_iff, List.forall₂_map_right_iff, List.forall₂_iff_get]
  refine ⟨by simpa using h.size.symm, fun i hi hi' => ?_⟩
  have hs := h.nets i
  rw [Array.getElem?_eq_getElem (by simpa using hi), Array.getElem?_eq_getElem (by simpa using hi')]
    at hs
  cases hs with
  | some hs => simpa using hs.cost

theorem stateOf (h : BothForms R e e') (n : NetId) :
    Checked.Agree (NetState.UpTo R) (e.stateOf n) (e'.stateOf n) := by
  rw [Engine.stateOf, Engine.stateOf, entry, entry]
  have hn := h.nets n.toNat
  generalize e.nets[n.toNat]? = s at hn
  generalize e'.nets[n.toNat]? = s' at hn
  cases hn with
  | none => exact .error _
  | some hs => exact .ok hs

/-- Changing the state of a net. -/
theorem updateNet (h : BothForms R e e') (n : NetId) {f f' : NetState α → NetState α}
    (hf : ∀ s s', s.UpTo R s' → (f s).UpTo R (f' s')) :
    BothForms R (e.updateNet n f) (e'.updateNet n f') := by
  refine ⟨?_, h.layers, h.geometry, fun i => ?_⟩
  · rw [h.same]
    rfl
  · have hi := h.nets i
    rw [Engine.updateNet, Engine.updateNet, Array.getElem?_modify, Array.getElem?_modify]
    split
    · generalize e.nets[i]? = s at hi
      generalize e'.nets[i]? = s' at hi
      cases hi with
      | none => exact .none
      | some hs => exact .some (hf _ _ hs)
    · exact hi

/-- Changing the geometries. -/
theorem withGeometry (h : BothForms R e e') {t t' : GeometryTable} (ht : t.BothForms t') :
    BothForms R { e with geometry := t } { e' with geometry := t' } :=
  ⟨by rw [h.same], h.layers, ht, h.nets⟩

/-- Changing the timings. -/
theorem withConnections (h : BothForms R e e') (t : ConnectionTable δ α) :
    BothForms R { e with connections := t } { e' with connections := t } :=
  ⟨by rw [h.same], h.layers, h.geometry, h.nets⟩

/-- Changing the geometries, and how that of one net came about. -/
theorem proposing (h : BothForms R e e') {t t' : GeometryTable} (ht : t.BothForms t') (n : NetId)
    (update : NetUpdate) :
    BothForms R ({ e with geometry := t }.updateNet n fun s => { s with update })
      ({ e' with geometry := t' }.updateNet n fun s => { s with update }) :=
  (h.withGeometry ht).updateNet n fun _ _ hs => ⟨hs.cost, hs.proposed, rfl, hs.ignored⟩

/-! ### Keeping a net in step -/

theorem load (h : BothForms R e e') : Checked.Agree GeometryTable.BothForms
    (e.geometry.load nl e.interior n) (e'.geometry.load nl e'.interior n) := by
  rw [h.interior]
  exact h.geometry.load h.layers

theorem propose (h : BothForms R e e') : Checked.Agree GeometryTable.BothForms
    (e.geometry.propose nl e.interior n) (e'.geometry.propose nl e'.interior n) := by
  rw [h.interior]
  exact h.geometry.propose h.layers

theorem rescan (h : BothForms R e e') :
    Checked.Agree (BothForms R) (e.rescan nl n) (e'.rescan nl n) := by
  rw [Engine.rescan, Engine.rescan]
  exact h.propose.bind fun t t' ht => .ok (h.proposing ht n .rescanned)

/-- **A pin is followed alike** in both forms: both scan its net anew, or neither does. -/
theorem follow (h : BothForms R e e') (r : Relocation) (pin : Pin) :
    Checked.Agree (BothForms R) (e.follow nl n r pin) (e'.follow nl n r pin) := by
  rw [Engine.follow, Engine.follow]
  refine (h.stateOf n).bind fun s s' hs => ?_
  have hsmall : e'.options.smallNet = e.options.smallNet := by rw [h.options]
  rw [hs.update]
  split
  · exact .ok h
  · refine .bind_same fun net _ => ?_
    rw [hsmall]
    split
    · exact h.rescan
    · have hshiftOf : e'.shiftOf r pin = e.shiftOf r pin := by
        rw [Engine.shiftOf, Engine.shiftOf, h.interior]
      rw [hshiftOf]
      refine .bind_same fun shift hshift => ?_
      -- the pin stays on the one layer
      obtain ⟨source, -, hshift⟩ := Checked.bind_eq_ok.1 hshift
      obtain ⟨old, hold, hshift⟩ := Checked.bind_eq_ok.1 hshift
      obtain ⟨target, -, hshift⟩ := Checked.bind_eq_ok.1 hshift
      obtain ⟨new, hnew, hshift⟩ := Checked.bind_eq_ok.1 hshift
      cases hshift
      refine (h.geometry.shift _ (Interior.layer_of_clip h.layers hold)
        (Interior.layer_of_clip h.layers hnew)).bind ?_
      rintro ⟨t, _⟩ ⟨t', followed⟩ ⟨ht, rfl⟩
      cases followed with
      | true => exact .ok (h.proposing ht n .adjusted)
      | false => exact (h.withGeometry ht).rescan

/-! ### Evaluating a move -/

variable [CostScalar α]

theorem touch (h : BothForms R e e') (hR : SameNumber R) (n : NetId) {s s' : NetState α}
    (hs : s.UpTo R s') : BothForms R (e.touch n s) (e'.touch n s') := by
  have hsome : s'.proposed.isSome = s.proposed.isSome := by
    have hproposed := hs.proposed
    generalize s.proposed = cost at hproposed
    generalize s'.proposed = cost' at hproposed
    cases hproposed <;> rfl
  rw [Engine.touch, Engine.touch, hsome]
  split
  · exact h
  · have hupdate : BothForms R (e.updateNet n fun s => { s with proposed := some zero })
        (e'.updateNet n fun s => { s with proposed := some zero }) :=
      h.updateNet n fun _ _ hs => ⟨hs.cost, .some (hR.refl _), hs.update, hs.ignored⟩
    refine ⟨?_, h.layers, h.geometry, hupdate.nets⟩
    rw [h.affected, hupdate.same]

/-- **Costing a listed net** costs the same in both. -/
theorem recost (h : BothForms R e e') (hR : SameNumber R) (hsums : PlainSums R) {delta delta' : α}
    (hdelta : R delta delta') :
    Checked.Agree (fun x y => BothForms R x.1 y.1 ∧ R x.2 y.2) (Engine.recost (e, delta) n)
      (Engine.recost (e', delta') n) := by
  have hcheck : ∀ g, e'.checkProposed n g = e.checkProposed n g := by
    intro g
    rw [checkProposed, checkProposed, h.interior]
  rw [Engine.recost, Engine.recost, h.geometry.proposedOf]
  refine .bind_same fun g hg => ?_
  have hone := h.geometry.oneLayer_proposedOf hg
  rw [h.factors]
  refine (h.geometry.agree_cost hsums hone e.factors).bind fun cost cost' hcost =>
    (h.stateOf n).bind fun s s' hs => ?_
  rw [hcheck]
  refine .bind_same fun _ _ => .ok ⟨?_, hR.add hdelta (hR.sub hcost hs.cost)⟩
  exact h.updateNet n fun _ _ hs => ⟨hs.cost, .some hcost, hs.update, hs.ignored⟩

variable [DelayScalar δ α] {m : Move} {timing : Option (TimingInputs δ)} {delta : α}

/-- **A visit** does the same to both. -/
theorem visit (h : BothForms R e e') (hR : SameNumber R) (r : Relocation) (p : PinId) :
    Checked.Agree (fun x y => BothForms R x.1 y.1 ∧ y.2 = x.2)
      (Engine.visit nl m timing r (e, delta) p) (Engine.visit nl m timing r (e', delta) p) := by
  rw [Engine.visit, Engine.visit]
  refine .bind_same fun pin _ => ?_
  split
  · exact .ok ⟨h, rfl⟩
  · rename_i n _
    dsimp only
    refine (h.stateOf n).bind fun s s' hs => ?_
    rw [hs.ignored]
    split
    · exact .ok ⟨h, rfl⟩
    · refine ((h.touch hR n hs).follow r pin).bind fun e₁ e₁' h₁ => ?_
      cases timing with
      | none => exact .ok ⟨h₁, rfl⟩
      | some inputs =>
        dsimp only
        rw [retime_eq, retime_eq, h₁.connections]
        rcases e₁.connections.retime nl inputs m n pin with fault | ⟨t, c⟩
        · exact .error fault
        · exact .ok ⟨h₁.withConnections t, rfl⟩

/-- **An evaluation** lists the same nets in both, with the same proposals and changes. -/
theorem evaluate (h : BothForms R e e') (hR : SameNumber R) (hsums : PlainSums R) :
    Checked.Agree (fun x y => BothForms R x.1 y.1 ∧ x.2.UpTo R y.2) (e.evaluate nl m timing)
      (e'.evaluate nl m timing) := by
  rw [Engine.evaluate, Engine.evaluate, h.pending]
  refine .bind_same fun _ _ => ?_
  have hstart : BothForms R { e with pending := true, affected := [] }
      { e' with pending := true, affected := [] } :=
    ⟨by rw [h.same], h.layers, h.geometry, h.nets⟩
  have hvisits : Checked.Agree (fun x y => BothForms R x.1 y.1 ∧ y.2 = x.2)
      (m.relocations.foldlM (visitBlock nl m timing)
        ({ e with pending := true, affected := [] }, zero))
      (m.relocations.foldlM (visitBlock nl m timing)
        ({ e' with pending := true, affected := [] }, zero)) := by
    refine .foldlM ⟨hstart, rfl⟩ ?_
    rintro ⟨x, c⟩ ⟨y, c'⟩ r - ⟨hxy, rfl⟩
    rw [visitBlock, visitBlock]
    refine .bind_same fun block _ => .bind_same fun _ _ => .foldlM ⟨hxy, rfl⟩ ?_
    rintro ⟨x, c⟩ ⟨y, c'⟩ p - ⟨hxy, rfl⟩
    exact hxy.visit hR r p
  refine hvisits.bind ?_
  rintro ⟨x, c⟩ ⟨y, c'⟩ ⟨hxy, rfl⟩
  dsimp only at hxy ⊢
  rw [hxy.affected]
  have hcosts : Checked.Agree (fun u v => BothForms R u.1 v.1 ∧ R u.2 v.2)
      (x.affected.foldlM Engine.recost (x, zero)) (x.affected.foldlM Engine.recost (y, zero)) := by
    refine .foldlM ⟨hxy, hR.refl _⟩ ?_
    rintro ⟨u, d⟩ ⟨v, d'⟩ n - ⟨huv, hd⟩
    exact huv.recost hR hsums hd
  refine hcosts.bind ?_
  rintro ⟨u, d⟩ ⟨v, d'⟩ ⟨huv, hd⟩
  dsimp only at huv hd ⊢
  rw [huv.affected, huv.connections]
  exact .ok ⟨huv, hd, rfl, rfl, rfl⟩

/-! ### Ending the move -/

omit [CostScalar α] [DelayScalar δ α] in
theorem commit (h : BothForms R e e') : Checked.Agree (BothForms R) e.commit e'.commit := by
  rw [Engine.commit, Engine.commit, h.pending, h.affected]
  refine .bind_same fun _ _ => ?_
  have hloop : Checked.Agree (BothForms R) (e.affected.foldlM commitNet e)
      (e.affected.foldlM commitNet e') := by
    refine .foldlM h fun x y n _ hxy => ?_
    rw [commitNet, commitNet]
    refine hxy.geometry.commit.bind fun t t' ht => .ok ?_
    refine (hxy.withGeometry ht).updateNet n fun s s' hs => ?_
    refine ⟨?_, .none, rfl, hs.ignored⟩
    have hproposed := hs.proposed
    rw [NetState.accept, NetState.accept]
    generalize s.proposed = cost at hproposed
    generalize s'.proposed = cost' at hproposed
    cases hproposed with
    | none => exact hs.cost
    | some hcost => exact hcost
  refine hloop.bind fun x y hxy => .ok ?_
  refine ⟨?_, hxy.layers, hxy.geometry, hxy.nets⟩
  rw [hxy.same]

omit [CostScalar α] [DelayScalar δ α] in
theorem rollback (h : BothForms R e e') : Checked.Agree (BothForms R) e.rollback e'.rollback := by
  rw [Engine.rollback, Engine.rollback, h.pending, h.affected]
  refine .bind_same fun _ _ => .ok ?_
  have hloop : ∀ (ns : List NetId) (x y : Engine δ α), BothForms R x y →
      BothForms R (ns.foldl (fun e n => e.updateNet n NetState.discard) x)
        (ns.foldl (fun e n => e.updateNet n NetState.discard) y) := by
    intro ns
    induction ns with
    | nil => exact fun _ _ hxy => hxy
    | cons n ns ih =>
      exact fun x y hxy => ih _ _ (hxy.updateNet n fun _ _ hs => ⟨hs.cost, .none, rfl, hs.ignored⟩)
  have hdone := hloop e.affected e e' h
  exact ⟨by rw [hdone.same], hdone.layers, hdone.geometry, hdone.nets⟩

/-! ### Recomputations and verifications -/

omit [DelayScalar δ α] in
/-- **A rebuild** finds the same totals in both. -/
theorem rebuild (h : BothForms R e e') (hR : SameNumber R) (hsums : PlainSums R)
    (withLength : Bool) :
    Checked.Agree (fun x y => BothForms R x.1 y.1 ∧ x.2.1.UpTo R y.2.1 ∧
      List.Forall₂ (Finding.UpTo R) x.2.2 y.2.2) (e.rebuild nl withLength)
      (e'.rebuild nl withLength) := by
  have hloop : Checked.Agree (fun x y => BothForms R x.1 y.1 ∧ R x.2.cost y.2.cost ∧
      R x.2.wirelength y.2.wirelength)
      (e.netIds.foldlM (rebuildNet nl withLength) (e, ⟨zero, zero⟩))
      (e.netIds.foldlM (rebuildNet nl withLength) (e', ⟨zero, zero⟩)) := by
    refine .foldlM ⟨h, hR.refl _, hR.refl _⟩ ?_
    rintro ⟨x, t⟩ ⟨y, t'⟩ n - ⟨hxy, hcost, hlength⟩
    rw [rebuildNet, rebuildNet]
    refine .bind_same fun net _ => ?_
    dsimp only at hxy hcost hlength ⊢
    split
    · refine .ok ⟨?_, hcost, hlength⟩
      exact hxy.updateNet n fun _ _ hs => ⟨hR.refl _, hs.proposed, hs.update, rfl⟩
    · refine hxy.load.bind fun g g' hg => ?_
      have hfactors : g'.committedCost y.factors n = g'.committedCost x.factors n := by
        rw [hxy.factors]
      rw [hfactors]
      refine (hg.committedCost hsums x.factors n).bind fun c c' hc => ?_
      have hlengths : Checked.Agree R
          (if withLength then (g.committedLength n).map (t.wirelength + ·)
            else .ok t.wirelength)
          (if withLength then (g'.committedLength n).map (t'.wirelength + ·)
            else .ok t'.wirelength) := by
        split
        · exact (hg.committedLength hsums n).map fun _ _ hl => hR.add hlength hl
        · exact .ok hlength
      simp only [← Checked.ite_bind]
      refine hlengths.bind fun l l' hl => .ok ⟨?_, hR.add hcost hc, hl⟩
      exact (hxy.withGeometry hg).updateNet n fun _ _ hs => ⟨hc, hs.proposed, hs.update, rfl⟩
  rw [Engine.rebuild, Engine.rebuild, h.pending, h.size, h.netIds]
  refine .bind_same fun _ _ => .bind_same fun _ _ => hloop.bind ?_
  rintro ⟨x, t⟩ ⟨y, t'⟩ ⟨hxy, hcost, hlength⟩
  dsimp only
  split
  · exact .ok ⟨hxy, ⟨hcost, .some hlength⟩, .cons (.wirelength hlength) .nil⟩
  · exact .ok ⟨hxy, ⟨hcost, .none⟩, .nil⟩

omit [DelayScalar δ α] in
theorem committedCost (h : BothForms R e e') (hsums : PlainSums R) (n : NetId) :
    Checked.Agree R (e.committedCost n) (e'.committedCost n) := by
  rw [Engine.committedCost, Engine.committedCost, h.factors]
  exact h.geometry.committedCost hsums e.factors n

omit [DelayScalar δ α] in
theorem recomputeBoxCost (h : BothForms R e e') (hR : SameNumber R) (hsums : PlainSums R) :
    Checked.Agree R e.recomputeBoxCost e'.recomputeBoxCost := by
  rw [Engine.recomputeBoxCost, Engine.recomputeBoxCost, h.countedNets]
  have hcosts := Checked.Agree.mapM fun n (_ : n ∈ e.countedNets) => h.committedCost hsums n
  exact hcosts.bind fun costs costs' hc => .ok (hR.sum hc)

theorem recomputeTiming (h : BothForms R e e') (inputs : TimingInputs δ) :
    Checked.Agree (fun x y => BothForms R x.1 y.1 ∧ y.2 = x.2) (e.recomputeTiming nl inputs)
      (e'.recomputeTiming nl inputs) := by
  rw [Engine.recomputeTiming, Engine.recomputeTiming, h.pending, h.connections]
  refine .bind_same fun _ _ => .bind_same ?_
  rintro ⟨t, total⟩ -
  exact .ok ⟨⟨by rw [h.same], h.layers, h.geometry, h.nets⟩, rfl⟩

omit [DelayScalar δ α] in
/-- Both find the same totals close. -/
theorem isClose (h : BothForms R e e') (hR : SameNumber R) {tracked tracked' total total' : α}
    (htracked : R tracked tracked') (htotal : R total total') :
    e'.isClose tracked' total' = e.isClose tracked total := by
  rw [Engine.isClose, Engine.isClose, h.options, decide_eq_decide]
  exact (hR.le (hR.magnitude (hR.sub htotal htracked)) (hR.mul htracked (hR.refl _))).symm

/-- **A check of the totals** finds the same drift in both, or none. -/
theorem checkTotals (h : BothForms R e e') (hR : SameNumber R) (hsums : PlainSums R)
    {totals totals' : Totals α} (htotals : totals.UpTo R totals') :
    Checked.Agree (fun x y => BothForms R x.engine y.engine ∧ x.totals.UpTo R y.totals ∧
      Option.Rel (Drift.UpTo R) x.drift y.drift ∧
      List.Forall₂ (Finding.UpTo R) x.findings y.findings)
      (e.checkTotals nl totals timing) (e'.checkTotals nl totals' timing) := by
  have hdrifted : ∀ {x y : Engine δ α} {t t' : Totals α} {d d' : Drift α}, BothForms R x y →
      t.UpTo R t' → d.UpTo R d' → BothForms R (x.drifted t d).engine (y.drifted t' d').engine ∧
        (x.drifted t d).totals.UpTo R (y.drifted t' d').totals ∧
        Option.Rel (Drift.UpTo R) (x.drifted t d).drift (y.drifted t' d').drift ∧
        List.Forall₂ (Finding.UpTo R) (x.drifted t d).findings (y.drifted t' d').findings := by
    intro x y t t' d d' hxy ht hd
    rw [drifted, drifted, hxy.options]
    exact ⟨hxy, ht, .some hd, .cons (.drift hd _) .nil⟩
  rw [Engine.checkTotals, Engine.checkTotals]
  refine (h.recomputeBoxCost hR hsums).bind fun box box' hbox => ?_
  rw [h.isClose hR htotals.box hbox]
  split
  · exact .ok (hdrifted h htotals ⟨rfl, htotals.box, hbox⟩)
  · have hafter : ({ totals with box } : Totals α).UpTo R { totals' with box := box' } :=
      ⟨hbox, htotals.timing⟩
    cases timing with
    | none => exact .ok ⟨h, hafter, .none, .nil⟩
    | some inputs =>
      refine (h.recomputeTiming inputs).bind ?_
      rintro ⟨x, total⟩ ⟨y, total'⟩ ⟨hxy, rfl⟩
      dsimp only at hxy ⊢
      rw [hxy.isClose hR htotals.timing (hR.refl _)]
      split
      · exact .ok (hdrifted hxy hafter ⟨rfl, htotals.timing, hR.refl _⟩)
      · exact .ok ⟨hxy, ⟨hbox, hR.refl _⟩, .none, .nil⟩

omit [DelayScalar δ α] in
/-- **A verification** finds the same mismatch in both, or none. -/
theorem verify (h : BothForms R e e') (hR : SameNumber R) (hsums : PlainSums R) :
    Checked.Agree (fun x y => BothForms R x.1 y.1 ∧ Option.Rel (Mismatch.UpTo R) x.2 y.2)
      (e.verify nl) (e'.verify nl) := by
  rw [Engine.verify, Engine.verify, h.pending, h.countedNets]
  split
  · exact .ok ⟨h, .some .moveIsPending⟩
  · rename_i hidle
    clear hidle
    generalize e.countedNets = ns
    -- induction on the nets still to be verified, for any two engines
    induction ns generalizing e e' with
    | nil => exact .ok ⟨h, .none⟩
    | cons n ns ih =>
      have hnet : Checked.Agree
          (fun x y => BothForms R x.1 y.1 ∧ Option.Rel (Mismatch.UpTo R) x.2 y.2)
          (e.verifyNet nl n) (e'.verifyNet nl n) := by
        rw [Engine.verifyNet, Engine.verifyNet]
        refine h.propose.bind fun t t' ht => ?_
        have hscanned := h.withGeometry ht
        dsimp only
        rw [ht.committedOf, ht.proposedOf]
        refine .bind_same fun committed _ => .bind_same fun scanned _ => ?_
        split
        · exact .ok ⟨hscanned, .some (.geometry n committed scanned)⟩
        · refine (hscanned.committedCost hsums n).bind fun cost cost' hcost =>
            (hscanned.stateOf n).bind fun s s' hs => ?_
          rw [hR.beq hcost hs.cost]
          split
          · exact .ok ⟨hscanned, .none⟩
          · exact .ok ⟨hscanned, .some (.cost n hs.cost hcost)⟩
      refine hnet.bind ?_
      rintro ⟨x, found⟩ ⟨y, found'⟩ ⟨hxy, hfound⟩
      cases hfound with
      | some hmismatch => exact .ok ⟨hxy, .some hmismatch⟩
      | none => exact ih hxy

/-! ### Operations -/

/-- **Every operation** answers the same on both, and leaves both in the same state. -/
theorem run (h : BothForms R e e') (hR : SameNumber R) (hsums : PlainSums R)
    {op op' : Operation δ α} (hop : op.UpTo R op') :
    Checked.Agree (fun x y => BothForms R x.1 y.1 ∧ x.2.UpTo R y.2) (op.run e) (op'.run e') := by
  have hcheck : ∀ (nl : Netlist) (t t' : Totals α) (timing : Option (TimingInputs δ)),
      t.UpTo R t' → Checked.Agree (fun x y => BothForms R x.1 y.1 ∧ x.2.UpTo R y.2)
        (Operation.run e (.checkTotals nl t timing))
        (Operation.run e' (.checkTotals nl t' timing)) := by
    intro nl t t' timing ht
    refine (h.checkTotals hR hsums ht).bind ?_
    rintro x y ⟨hxy, htotals, hdrift, hfindings⟩
    exact .ok ⟨hxy, .totals htotals hdrift hfindings⟩
  cases hop with
  | checkTotals nl ht timing => exact hcheck nl _ _ timing ht
  | same =>
    cases op with
    | evaluate nl m timing =>
      refine (h.evaluate hR hsums).bind ?_
      rintro ⟨x, o⟩ ⟨y, o'⟩ ⟨hxy, ho⟩
      exact .ok ⟨hxy, .outcome ho⟩
    | commit => exact h.commit.bind fun x y hxy => .ok ⟨hxy, .done⟩
    | rollback => exact h.rollback.bind fun x y hxy => .ok ⟨hxy, .done⟩
    | rebuild nl withLength =>
      refine (h.rebuild hR hsums withLength).bind ?_
      rintro ⟨x, r, f⟩ ⟨y, r', f'⟩ ⟨hxy, hr, hf⟩
      exact .ok ⟨hxy, .report hr hf⟩
    | recomputeBoxCost =>
      exact (h.recomputeBoxCost hR hsums).bind fun c c' hc => .ok ⟨h, .total hc⟩
    | recomputeTiming nl inputs =>
      refine (h.recomputeTiming inputs).bind ?_
      rintro ⟨x, c⟩ ⟨y, c'⟩ ⟨hxy, rfl⟩
      exact .ok ⟨hxy, .total (hR.refl _)⟩
    | checkTotals nl t timing => exact hcheck nl t t timing ⟨hR.refl _, hR.refl _⟩
    | verify nl =>
      refine (h.verify hR hsums).bind ?_
      rintro ⟨x, f⟩ ⟨y, f'⟩ ⟨hxy, hf⟩
      exact .ok ⟨hxy, .mismatch hf⟩

end BothForms

/-! ## New engines -/

section

variable {R : α → α → Prop} [CostScalar α]

/-- **New engines of both forms** can be built alike. -/
theorem agree_ofFactors [DelayScalar δ α] (hR : SameNumber R) (hsums : PlainSums R)
    {interior : Interior} (hlayers : interior.layers = 1) (factors : ChannelFactors α)
    (options : EngineOptions α) (nl : Netlist) :
    Checked.Agree (BothForms R) (ofFactors interior factors .cube options nl : Checked (Engine δ α))
      (ofFactors interior factors .perLayer options nl) := by
  have hblank : Checked.Agree (BothForms R)
      (blank interior factors .cube options nl : Checked (Engine δ α))
      (blank interior factors .perLayer options nl) := by
    rw [blank, blank, hlayers]
    refine (GeometryTable.agree_blank nl.nets.size).bind fun t t' ht => .ok ?_
    refine ⟨rfl, hlayers, ht, fun i => ?_⟩
    dsimp only
    rw [Array.getElem?_replicate]
    split
    · exact .some ⟨hR.refl _, .none, rfl, rfl⟩
    · exact .none
  rw [ofFactors, ofFactors]
  refine hblank.bind fun x y hxy => (hxy.rebuild hR hsums false).bind ?_
  rintro ⟨x, r, f⟩ ⟨y, r', f'⟩ ⟨hxy, -⟩
  exact .ok hxy

/-- Two outcomes of building an engine: the same defect of the device, or engines that are related
and findings that differ at most in the form that they name. -/
inductive NewUpTo (R : α → α → Prop) : Except DeviceDefect (Engine δ α × List (Finding α)) →
    Except DeviceDefect (Engine δ α × List (Finding α)) → Prop where
  | defect (d : DeviceDefect) : NewUpTo R (.error d) (.error d)
  | new {e e' : Engine δ α} {findings findings' : List (Finding α)} (h : BothForms R e e')
      (hfindings : List.Forall₂ (Finding.UpTo R) findings findings') :
      NewUpTo R (.ok (e, findings)) (.ok (e', findings'))

variable [DelayScalar δ α] {device : Device} {nl : Netlist}

/-- **On a device with one layer** new engines of both forms can be built alike. -/
theorem agree_ofDevice (hR : SameNumber R) (hsums : PlainSums R) (hlayers : device.layers = 1)
    (settings : CostSettings α) :
    Checked.Agree (NewUpTo (δ := δ) R) (ofDevice nl device { settings with form := .cube })
      (ofDevice nl device { settings with form := .perLayer }) := by
  rw [ofDevice, ofDevice]
  refine .bind_same fun interior? hinterior => ?_
  cases interior? with
  | error defect => exact .ok (.defect defect)
  | ok interior =>
    dsimp only
    obtain ⟨-, -, -, -, -, hone⟩ := Interior.ofDevice_eq_ok.1 hinterior
    rw [hlayers] at hone
    refine .bind_same ?_
    rintro ⟨factors, bare⟩ -
    dsimp only
    refine (agree_ofFactors hR hsums hone.symm factors _ nl).bind fun x y hxy => .ok ?_
    refine .new hxy (List.rel_append ?_ ?_)
    · rw [List.forall₂_map_left_iff, List.forall₂_map_right_iff, List.forall₂_same]
      exact fun span _ => .bareSpan span
    · exact .cons (.boxForm ..) .nil

end

/-! ## Runs side by side -/

section

variable [CostScalar α] [DelayScalar δ α] {R : α → α → Prop} {e e' : Engine δ α}

/-- **Two runs side by side** on a device with one layer, one for either form. New engines are built
for the same netlist, and then the same operations are done on both. The running totals that are
to be checked may differ as far as they count as the same numbers. -/
inductive Parallel (R : α → α → Prop) : Engine δ α → Engine δ α → Prop where
  | new {nl : Netlist} {device : Device} {settings : CostSettings α} {e e' : Engine δ α}
      {findings findings' : List (Finding α)} (hlayers : device.layers = 1)
      (h : ofDevice nl device { settings with form := .cube } = .ok (.ok (e, findings)))
      (h' : ofDevice nl device { settings with form := .perLayer } = .ok (.ok (e', findings'))) :
      Parallel R e e'
  | run {e e' x x' : Engine δ α} {op op' : Operation δ α} {answer answer' : Answer α}
      (h : Parallel R e e') (hop : op.UpTo R op') (hrun : op.run e = .ok (x, answer))
      (hrun' : op'.run e' = .ok (x', answer')) : Parallel R x x'

/-- Along both runs the state is the same. -/
theorem Parallel.bothForms (hR : SameNumber R) (hsums : PlainSums R) (h : Parallel R e e') :
    BothForms R e e' := by
  induction h with
  | new hlayers h h' =>
    obtain ⟨new, hnew, hboth⟩ := (agree_ofDevice hR hsums hlayers _).exists_ok h
    obtain rfl := Except.ok.inj (h'.symm.trans hnew)
    cases hboth with
    | new hboth => exact hboth
  | run _ hop hrun hrun' ih =>
    obtain ⟨⟨y, _⟩, hy, hxy, -⟩ := (ih.run hR hsums hop).exists_ok hrun
    cases hrun'.symm.trans hy
    exact hxy

end

end Engine

end

end WireCost

/-! ## A small pair of runs -/

namespace WireCost.Sample

/-- The small engine with one box over all layers. -/
def cube : Engine Rat Rat :=
  (result (start netlist { settings with form := .cube }) (by decide +kernel)).1

/-- The small engine with one box a layer. -/
def perLayer : Engine Rat Rat :=
  (result (start netlist { settings with form := .perLayer }) (by decide +kernel)).1

/-- The first one with the move pending, and what the move changes. -/
def cubeEvaluated : Engine Rat Rat × Outcome Rat :=
  result (cube.evaluate placed move none) (by decide +kernel)

theorem parallel_forms : Engine.Parallel Eq cube perLayer := by
  obtain ⟨_, hcube⟩ : ∃ findings, Engine.ofDevice netlist device { settings with form := .cube } =
      .ok (.ok (cube, findings)) := ⟨_, ofDevice_of_start (eq_ok_result (by decide +kernel))⟩
  obtain ⟨_, hperLayer⟩ : ∃ findings,
      Engine.ofDevice netlist device { settings with form := .perLayer } =
        .ok (.ok (perLayer, findings)) := ⟨_, ofDevice_of_start (eq_ok_result (by decide +kernel))⟩
  exact .new rfl hcube hperLayer

end WireCost.Sample

namespace WireCost.Engine

variable {δ α : Type} [CostScalar α] [DelayScalar δ α] {R : α → α → Prop}

/-- **On a device with one layer both forms are the same engine,** whatever the netlist, the
threshold and the operations. They can be built alike. After every operation that is done on both,
they have the same committed and proposed geometries, list the same nets, hold the same timings, and
keep the same states of nets up to which costs count as one number; so are the costs and wirelengths
of all nets and the box total. The next operation faults on both or on neither, and its answers are
the same. Of sums it is only used that a sum of one term is that term, and one of none is zero. -/
theorem forms_agree_on_one_layer (hR : SameNumber R) (hsingle : ∀ a : α, R a (sum [a]))
    (hempty : R zero (sum [] : α)) :
    (∀ (nl : Netlist) (device : Device) (settings : CostSettings α), device.layers = 1 →
      Checked.Agree (NewUpTo (δ := δ) R) (ofDevice nl device { settings with form := .cube })
        (ofDevice nl device { settings with form := .perLayer })) ∧
    ∀ e e' : Engine δ α, Parallel R e e' →
      e'.geometry.committed = e.geometry.committed ∧
      e'.geometry.proposed = e.geometry.proposed ∧
      e'.affected = e.affected ∧ e'.pending = e.pending ∧ e'.connections = e.connections ∧
      (∀ i : Nat, Option.Rel (NetState.UpTo R) e.nets[i]? e'.nets[i]?) ∧
      (∀ n, Checked.Agree R (e.committedCost n) (e'.committedCost n)) ∧
      (∀ n, Checked.Agree R (e.geometry.committedLength n) (e'.geometry.committedLength n)) ∧
      R e.boxCost e'.boxCost ∧
      ∀ op op', Operation.UpTo R op op' →
        Checked.Agree (fun x y => x.2.UpTo R y.2) (op.run e) (op'.run e') := by
  have hsums : PlainSums R := ⟨hsingle, hempty⟩
  refine ⟨fun nl device settings hlayers => agree_ofDevice hR hsums hlayers settings,
    fun e e' h => ?_⟩
  have hboth := h.bothForms hR hsums
  refine ⟨hboth.geometry.committed_eq, hboth.geometry.proposed_eq, hboth.affected, hboth.pending,
    hboth.connections, hboth.nets, hboth.committedCost hsums,
    hboth.geometry.committedLength hsums, hR.sum hboth.costs, fun op op' hop => ?_⟩
  exact (hboth.run hR hsums hop).mono fun _ _ _ _ hxy => hxy.2

/-- On the one layer of the small device the move narrows the box by one column in either form. -/
theorem forms_agree_on_one_layer_small : ∃ x' o',
    Sample.perLayer.evaluate Sample.placed Sample.move none = .ok (x', o') ∧ o'.boxDelta = -1 ∧
    x'.geometry.proposed = Sample.cubeEvaluated.1.geometry.proposed := by
  have hsum : ∀ a : Rat, a = sum [a] := fun a => (zero_add a).symm
  obtain ⟨-, h⟩ := forms_agree_on_one_layer (δ := Rat) (R := (Eq : Rat → Rat → Prop)) .eq hsum rfl
  obtain ⟨-, -, -, -, -, -, -, -, -, hops⟩ := h _ _ Sample.parallel_forms
  have hrun : Operation.run Sample.cube (.evaluate Sample.placed Sample.move none) =
      .ok (Sample.cubeEvaluated.1, .outcome Sample.cubeEvaluated.2) := by
    have heval : Sample.cube.evaluate Sample.placed Sample.move none =
        .ok Sample.cubeEvaluated := Sample.eq_ok_result (by decide +kernel)
    rw [Operation.run, heval, Checked.ok_bind]
  obtain ⟨⟨x', answer'⟩, hrun', hanswer⟩ := (hops _ _ (.same _)).exists_ok hrun
  obtain ⟨-, hproposed, -⟩ := h _ _ (Sample.parallel_forms.run (.same _) hrun hrun')
  obtain ⟨⟨_, o'⟩, heval', hdone⟩ := Checked.bind_eq_ok.1 hrun'
  cases hdone
  cases hanswer with
  | outcome houtcome =>
    have hdelta : Sample.cubeEvaluated.2.boxDelta = -1 := by decide +kernel
    exact ⟨x', o', heval', houtcome.boxDelta.symm.trans hdelta, hproposed⟩

end WireCost.Engine
