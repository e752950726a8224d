import WireCost.Engine.Audit
import WireCost.Proofs.Engine.Rebuild

/-! # What a verification does

* **`Engine.Agrees`** — a net whose committed geometry and cost are those that its pins give.
* **`Engine.Differs`** — what is told of a net that does not agree.
* **`Engine.verifyNet_eq_ok`** — the comparison of one net with a scan.
* **`Engine.finds_of_verify`** — a verification tells the first net that differs, in any engine.
* **`Engine.frame_of_verify`** — a verification writes proposed geometries only.
* **`Engine.exists_verifyNets`** — a verification succeeds where every net can be scanned. -/

namespace WireCost.Engine

variable {δ α : Type} [CostScalar α] {e e' : Engine δ α} {nl : Netlist} {n : NetId}
  {ns : List NetId} {mismatch : Mismatch α} {found : Option (Mismatch α)} {g : Geometry}

/-- What the committed geometry of a net costs. -/
theorem committedCost_of_committedOf {cost : α} (h : e.geometry.committedOf n = .ok g)
    (hcost : g.cost e.form e.factors = .ok cost) : e.committedCost n = .ok cost := by
  rw [committedCost, GeometryTable.committedCost, h, Checked.ok_bind]
  exact hcost

/-- **A net agrees with its pins:** a scan of them gives what is committed, which is all boxes with
their edges and the sinks on each layer, and the committed cost is that of the committed boxes. -/
def Agrees (e : Engine δ α) (nl : Netlist) (n : NetId) : Prop :=
  ∃ g s cost, e.geometry.scan nl e.interior n = .ok g ∧ e.geometry.committedOf n = .ok g ∧
    e.stateOf n = .ok s ∧ e.committedCost n = .ok cost ∧ (cost == s.cost) = true

/-- **How a net differs from its pins.** Of a net whose geometry differs the cost is not told. -/
inductive Differs (e : Engine δ α) (nl : Netlist) (n : NetId) : Mismatch α → Prop where
  | geometry {committed scanned : Geometry} (hscan : e.geometry.scan nl e.interior n = .ok scanned)
      (hcommitted : e.geometry.committedOf n = .ok committed) (h : committed ≠ scanned) :
      Differs e nl n (.geometry n committed scanned)
  | cost {g : Geometry} {s : NetState α} {cost : α}
      (hscan : e.geometry.scan nl e.interior n = .ok g)
      (hcommitted : e.geometry.committedOf n = .ok g) (hstate : e.stateOf n = .ok s)
      (hcost : e.committedCost n = .ok cost) (h : (cost == s.cost) = false) :
      Differs e nl n (.cost n s.cost cost)

/-- A net that differs from its pins does not agree with them. -/
theorem Differs.not_agrees (h : e.Differs nl n mismatch) : ¬ e.Agrees nl n := by
  rintro ⟨g, s, cost, hscan, hcommitted, hstate, hcost, hbeq⟩
  cases h with
  | geometry hscan' hcommitted' hne =>
    obtain rfl := Except.ok.inj (hscan.symm.trans hscan')
    exact hne (Except.ok.inj (hcommitted'.symm.trans hcommitted))
  | cost _ _ hstate' hcost' hdiffers =>
    obtain rfl := Except.ok.inj (hstate.symm.trans hstate')
    obtain rfl := Except.ok.inj (hcost.symm.trans hcost')
    rw [hbeq] at hdiffers
    cases hdiffers

/-- The message about a net that differs starts with its number. -/
theorem Differs.message (h : e.Differs nl n mismatch) (show_ : α → String) :
    ∃ text, mismatch.message show_ = s!"net {n.index}: " ++ text := by
  have hboxes : toString ": committed boxes " = toString ": " ++ "committed boxes " := rfl
  have hcosts : toString ": committed cost " = toString ": " ++ "committed cost " := rfl
  cases h <;> exact ⟨_, by simp only [Mismatch.message, hboxes, hcosts, String.append_assoc]; rfl⟩

/-- What the comparison of one net finds: nothing if it agrees with its pins. -/
def Finds (e : Engine δ α) (nl : Netlist) (n : NetId) : Option (Mismatch α) → Prop
  | none => e.Agrees nl n
  | some mismatch => e.Differs nl n mismatch

/-- **The comparison of one net with a scan.** -/
theorem verifyNet_eq_ok : e.verifyNet nl n = .ok (e', found) ↔
    n.toNat < e.geometry.proposed.size ∧ e.Finds nl n found ∧
      ∃ g, e.geometry.scan nl e.interior n = .ok g ∧
        e' = { e with geometry := e.geometry.withProposed n g } := by
  -- the scan is written to the proposed side and read from there
  have hread : ∀ g, n.toNat < e.geometry.proposed.size →
      (e.geometry.withProposed n g).proposedOf n = .ok g := by
    intro g hlt
    exact entry_of_some (Array.getElem?_setIfInBounds_self_of_lt hlt)
  simp only [verifyNet, Checked.bind_eq_ok, GeometryTable.propose_eq_ok]
  constructor
  · rintro ⟨_, ⟨hlt, g, hg, rfl⟩, committed, hc, scanned, hscanned, h⟩
    rw [hread g hlt] at hscanned
    obtain rfl := Except.ok.inj hscanned
    refine ⟨hlt, ?_⟩
    -- the committed side is not written, so all that is read from it is what was there
    split at h
    · rename_i hne
      cases h
      exact ⟨.geometry hg hc hne, g, hg, rfl⟩
    · rename_i heq
      obtain rfl := not_not.1 heq
      obtain ⟨cost, hcost, h⟩ := Checked.bind_eq_ok.1 h
      obtain ⟨s, hs, h⟩ := Checked.bind_eq_ok.1 h
      split at h
      · rename_i hbeq
        cases h
        exact ⟨⟨_, s, cost, hg, hc, hs, hcost, hbeq⟩, _, hg, rfl⟩
      · rename_i hbeq
        cases h
        exact ⟨.cost hg hc hs hcost (Bool.eq_false_iff.2 hbeq), _, hg, rfl⟩
  · rintro ⟨hlt, hfinds, g, hg, rfl⟩
    refine ⟨_, ⟨hlt, g, hg, rfl⟩, ?_⟩
    cases found with
    | none =>
      obtain ⟨g', s, cost, hg', hc, hs, hcost, hbeq⟩ := hfinds
      obtain rfl := Except.ok.inj (hg.symm.trans hg')
      refine ⟨g, hc, g, hread g hlt, ?_⟩
      rw [if_neg (not_not.2 rfl)]
      exact Checked.bind_eq_ok.2 ⟨cost, hcost, Checked.bind_eq_ok.2 ⟨s, hs, if_pos hbeq⟩⟩
    | some mismatch =>
      cases hfinds with
      | geometry hg' hc hne =>
        obtain rfl := Except.ok.inj (hg.symm.trans hg')
        exact ⟨_, hc, g, hread g hlt, if_pos hne⟩
      | cost hg' hc hs hcost hbeq =>
        obtain rfl := Except.ok.inj (hg.symm.trans hg')
        refine ⟨g, hc, g, hread g hlt, ?_⟩
        rw [if_neg (not_not.2 rfl)]
        exact Checked.bind_eq_ok.2 ⟨_, hcost, Checked.bind_eq_ok.2
          ⟨_, hs, if_neg (Bool.eq_false_iff.1 hbeq)⟩⟩

/-! ## Several nets -/

/-- **What the comparison of several nets finds:** nothing if all of them agree with their pins, and
otherwise how the first one differs that does not. -/
def FindsFirst (e : Engine δ α) (nl : Netlist) (ns : List NetId) : Option (Mismatch α) → Prop
  | none => ∀ n ∈ ns, e.Agrees nl n
  | some mismatch => ∃ before n after, ns = before ++ n :: after ∧
      (∀ n' ∈ before, e.Agrees nl n') ∧ e.Differs nl n mismatch

/-- After a net that agrees, the other nets are compared by an engine with the scan written. -/
theorem FindsFirst.cons (hn : e.Agrees nl n)
    (h : FindsFirst { e with geometry := e.geometry.withProposed n g } nl ns found) :
    e.FindsFirst nl (n :: ns) found := by
  -- none of what is compared is proposed
  cases found with
  | none => exact List.forall_mem_cons.2 ⟨hn, h⟩
  | some mismatch =>
    obtain ⟨before, n', after, rfl, hbefore, hdiffers⟩ := h
    refine ⟨n :: before, n', after, rfl, List.forall_mem_cons.2 ⟨hn, hbefore⟩, ?_⟩
    cases hdiffers with
    | geometry hscan hcommitted hne => exact .geometry hscan hcommitted hne
    | cost hscan hcommitted hstate hcost hbeq => exact .cost hscan hcommitted hstate hcost hbeq

/-- **It finds something exactly when** some net does not agree with its pins. -/
theorem FindsFirst.eq_none_iff (h : e.FindsFirst nl ns found) :
    found = none ↔ ∀ n ∈ ns, e.Agrees nl n := by
  cases found with
  | none => exact ⟨fun _ => h, fun _ => rfl⟩
  | some mismatch =>
    obtain ⟨before, n, after, rfl, -, hdiffers⟩ := h
    refine ⟨nofun, fun hall => absurd (hall n ?_) hdiffers.not_agrees⟩
    exact List.mem_append_right before List.mem_cons_self

/-- The comparison of several nets finds the first one that differs. -/
theorem finds_of_verifyNets (h : e.verifyNets nl ns = .ok (e', found)) :
    e.FindsFirst nl ns found := by
  induction ns generalizing e with
  | nil =>
    cases h
    exact nofun
  | cons n ns ih =>
    obtain ⟨⟨e₁, found₁⟩, hfirst, h⟩ := Checked.bind_eq_ok.1 h
    obtain ⟨-, hfinds, g, -, rfl⟩ := verifyNet_eq_ok.1 hfirst
    cases found₁ with
    | some mismatch =>
      cases h
      exact ⟨[], n, ns, rfl, nofun, hfinds⟩
    | none =>
      exact FindsFirst.cons hfinds (ih (e := { e with geometry := e.geometry.withProposed n g }) h)

/-- The comparison of nets writes proposed geometries only. -/
theorem frame_of_verifyNets (h : e.verifyNets nl ns = .ok (e', found)) :
    e' = { e with geometry := { e.geometry with proposed := e'.geometry.proposed } } ∧
      e'.geometry.proposed.size = e.geometry.proposed.size := by
  induction ns generalizing e with
  | nil =>
    cases h
    exact ⟨rfl, rfl⟩
  | cons n ns ih =>
    obtain ⟨⟨e₁, found₁⟩, hfirst, h⟩ := Checked.bind_eq_ok.1 h
    obtain ⟨-, -, g, -, rfl⟩ := verifyNet_eq_ok.1 hfirst
    have hsize : (e.geometry.withProposed n g).proposed.size = e.geometry.proposed.size :=
      Array.size_setIfInBounds
    cases found₁ with
    | some mismatch =>
      cases h
      exact ⟨rfl, hsize⟩
    | none =>
      -- no mismatch so far: the other nets are verified on the engine with the scan written
      obtain ⟨hrest, hlast⟩ := ih (e := { e with geometry := e.geometry.withProposed n g }) h
      refine ⟨?_, hlast.trans hsize⟩
      rw [hrest]
      rfl

/-- **A net can be compared** when it can be scanned, and what is scanned can be costed. -/
theorem exists_finds {cost : α} (hcommitted : n.toNat < e.geometry.committed.size)
    (hnets : n.toNat < e.nets.size) (hscan : e.geometry.scan nl e.interior n = .ok g)
    (hcost : g.cost e.form e.factors = .ok cost) : ∃ found, e.Finds nl n found := by
  have hc : e.geometry.committedOf n = .ok e.geometry.committed[n.toNat] :=
    entry_of_some (Array.getElem?_eq_getElem hcommitted)
  have hs : e.stateOf n = .ok e.nets[n.toNat] := entry_of_some (Array.getElem?_eq_getElem hnets)
  by_cases heq : e.geometry.committed[n.toNat] = g
  · rw [heq] at hc
    have hcost' := committedCost_of_committedOf hc hcost
    by_cases hbeq : (cost == e.nets[n.toNat].cost) = true
    · exact ⟨none, g, _, cost, hscan, hc, hs, hcost', hbeq⟩
    · exact ⟨some _, .cost hscan hc hs hcost' (Bool.eq_false_iff.2 hbeq)⟩
  · exact ⟨some _, .geometry hscan hc heq⟩

/-- **Nets can be compared** when each of them can. -/
theorem exists_verifyNets (hproposed : ∀ n ∈ ns, n.toNat < e.geometry.proposed.size)
    (hcommitted : ∀ n ∈ ns, n.toNat < e.geometry.committed.size)
    (hnets : ∀ n ∈ ns, n.toNat < e.nets.size)
    (hscans : ∀ n ∈ ns, ∃ g cost, e.geometry.scan nl e.interior n = .ok g ∧
      g.cost e.form e.factors = .ok cost) :
    ∃ e' found, e.verifyNets nl ns = .ok (e', found) := by
  induction ns generalizing e with
  | nil => exact ⟨e, none, rfl⟩
  | cons n ns ih =>
    rw [List.forall_mem_cons] at hproposed hcommitted hnets hscans
    obtain ⟨g, cost, hscan, hcost⟩ := hscans.1
    obtain ⟨found, hfinds⟩ := exists_finds hcommitted.1 hnets.1 hscan hcost
    have hfirst := verifyNet_eq_ok.2 ⟨hproposed.1, hfinds, g, hscan, rfl⟩
    rw [verifyNets, hfirst, Checked.ok_bind]
    cases found with
    | some mismatch => exact ⟨_, _, rfl⟩
    | none =>
      -- what is assumed of the other nets speaks of committed tables and sizes only
      refine ih (e := { e with geometry := e.geometry.withProposed n g }) ?_ hcommitted.2 hnets.2
        hscans.2
      intro n' hn'
      exact Array.size_setIfInBounds.symm ▸ hproposed.2 n' hn'

/-! ## All nets -/

/-- **A verification writes proposed geometries only.** -/
theorem frame_of_verify (h : e.verify nl = .ok (e', found)) :
    e' = { e with geometry := { e.geometry with proposed := e'.geometry.proposed } } ∧
      e'.geometry.proposed.size = e.geometry.proposed.size := by
  rw [verify] at h
  split at h
  · cases h
    exact ⟨rfl, rfl⟩
  · exact frame_of_verifyNets h

/-- **A verification between two moves** tells the first net that differs from its pins, whatever
the engine holds. -/
theorem finds_of_verify (hidle : e.pending = false) (h : e.verify nl = .ok (e', found)) :
    e.FindsFirst nl e.countedNets found := by
  rw [verify, hidle, if_neg Bool.false_ne_true] at h
  exact finds_of_verifyNets h

/-- **A verification succeeds** when every net that is not ignored can be scanned and costed. -/
theorem exists_verify (hcommitted : e.geometry.committed.size = e.nets.size)
    (hproposed : e.geometry.proposed.size = e.nets.size)
    (hscans : ∀ n ∈ e.countedNets, ∃ g cost, e.geometry.scan nl e.interior n = .ok g ∧
      g.cost e.form e.factors = .ok cost) : ∃ e' found, e.verify nl = .ok (e', found) := by
  have hnets : ∀ n ∈ e.countedNets, n.toNat < e.nets.size := fun n hn =>
    toNat_lt_of_mem_netIds (List.mem_of_mem_filter hn)
  rw [verify]
  split
  · exact ⟨e, _, rfl⟩
  · exact exists_verifyNets (hproposed.symm ▸ hnets) (hcommitted.symm ▸ hnets) hnets hscans

end WireCost.Engine
