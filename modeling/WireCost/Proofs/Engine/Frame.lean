import WireCost.Proofs.Engine.Visits

/-! # What an evaluation leaves alone

* **`Engine.SameSetup`** — two engines for the same device.
* **`Engine.SameCommitted`** — two engines with the same committed tables.
* **`Engine.Visited.sameCommitted`** — a visit changes proposed tables only.
* **`Engine.Visited.effect`** — of these, it changes nothing about other nets than the visited one,
  which it marks. -/

namespace WireCost

variable {δ α : Type}

/-! ## Timings -/

namespace ConnectionTable

/-- Two tables with the same committed timings. -/
structure SameCommitted (t t' : ConnectionTable δ α) : Prop where
  offsets : t'.offsets = t.offsets
  committed : t'.committed = t.committed
  size : t'.proposed.size = t.proposed.size

namespace SameCommitted

theorem refl (t : ConnectionTable δ α) : SameCommitted t t := ⟨rfl, rfl, rfl⟩

theorem trans {t t' t'' : ConnectionTable δ α} (h : SameCommitted t t')
    (h' : SameCommitted t' t'') : SameCommitted t t'' :=
  ⟨h'.offsets.trans h.offsets, h'.committed.trans h.committed, h'.size.trans h.size⟩

end SameCommitted

theorem size_commit (t : ConnectionTable δ α) : t.commit.committed.size = t.committed.size := by
  rw [commit, ← Array.foldl_toList]
  refine List.foldlRecOn (motive := fun xs : Array (Connection δ α) => xs.size = t.committed.size)
    t.touched.toList _ rfl ?_
  intro xs hxs slot _
  rw [commitSlot]
  split
  · exact Array.size_setIfInBounds.trans hxs
  · exact hxs

variable [CostScalar α] [DelayScalar δ α] {nl : Netlist} {inputs : TimingInputs δ}
  {timing : Option (TimingInputs δ)} {m : Move} {n : NetId} {pin : Pin}
  {t t' : ConnectionTable δ α} {change delta delta' : α}

theorem sameCommitted_propose {sink : Nat} (h : t.propose nl inputs n sink = .ok (t', change)) :
    SameCommitted t t' := by
  simp only [propose, Checked.bind_eq_ok] at h
  obtain ⟨slot, -, delay, -, old, -, h⟩ := h
  split at h
  · cases h
    exact .refl t
  · obtain ⟨timed, -, h⟩ := Checked.bind_eq_ok.1 h
    cases h
    exact ⟨rfl, rfl, Array.size_setIfInBounds⟩

theorem sameCommitted_retime (h : t.retime nl inputs m n pin = .ok (t', change)) :
    SameCommitted t t' := by
  rw [retime] at h
  split at h
  · obtain ⟨net, -, h⟩ := Checked.bind_eq_ok.1 h
    refine Checked.foldlM_induct (c := (t', change)) (fun _ s => SameCommitted t s.1) (.refl t)
      ?_ h
    intro _ sink _ s s' _ hs hstep
    obtain ⟨⟨t₁, c⟩, hpropose, hs'⟩ := Checked.bind_eq_ok.1 hstep
    cases hs'
    exact hs.trans (sameCommitted_propose hpropose)
  · obtain ⟨driver, -, h⟩ := Checked.bind_eq_ok.1 h
    obtain ⟨pin', -, h⟩ := Checked.bind_eq_ok.1 h
    split at h
    · cases h
      exact .refl t
    · split at h
      · cases h
        exact .refl t
      · exact sameCommitted_propose h

/-- Timing what a visit changes leaves the committed timings alone. -/
theorem sameCommitted_visit (h : visit nl timing m n pin (t, delta) = .ok (t', delta')) :
    SameCommitted t t' := by
  cases timing with
  | none =>
    cases h
    exact .refl t
  | some inputs =>
    obtain ⟨⟨t₁, c⟩, hretime, heq⟩ := Checked.bind_eq_ok.1 h
    cases heq
    exact sameCommitted_retime hretime

end ConnectionTable

/-! ## Engines -/

namespace Engine

/-- **Two engines with the same setup:** the same interior, channel factors and boxes. -/
structure SameSetup (e e' : Engine δ α) : Prop where
  interior : e'.interior = e.interior
  factors : e'.factors = e.factors
  form : e'.form = e.form
  layers : e'.geometry.layers = e.geometry.layers

namespace SameSetup

variable {e e' e'' : Engine δ α}

theorem symm (h : SameSetup e e') : SameSetup e' e :=
  ⟨h.interior.symm, h.factors.symm, h.form.symm, h.layers.symm⟩

theorem trans (h : SameSetup e e') (h' : SameSetup e' e'') : SameSetup e e'' :=
  ⟨h'.interior.trans h.interior, h'.factors.trans h.factors, h'.form.trans h.form,
    h'.layers.trans h.layers⟩

/-- They scan a placement alike. -/
theorem scan (h : SameSetup e e') (nl : Netlist) (n : NetId) :
    e'.geometry.scan nl e'.interior n = e.geometry.scan nl e.interior n := by
  have hform : e'.geometry.form = e.geometry.form := h.form
  rw [GeometryTable.scan, GeometryTable.scan, hform, h.layers, h.interior]

/-- They cost geometries alike. -/
theorem cost [CostScalar α] (h : SameSetup e e') (g : Geometry) :
    g.cost e'.form e'.factors = g.cost e.form e.factors := by
  rw [h.form, h.factors]

end SameSetup

/-- **Two engines with the same committed tables:** the geometries, the costs, which nets are
ignored, and the timings. -/
structure SameCommitted (e e' : Engine δ α) : Prop where
  interior : e'.interior = e.interior
  factors : e'.factors = e.factors
  options : e'.options = e.options
  form : e'.geometry.form = e.geometry.form
  layers : e'.geometry.layers = e.geometry.layers
  geometries : e'.geometry.committed = e.geometry.committed
  size : e'.geometry.proposed.size = e.geometry.proposed.size
  costs : e'.nets.map (fun s => (s.cost, s.ignored)) = e.nets.map fun s => (s.cost, s.ignored)
  timings : e.connections.SameCommitted e'.connections

variable {e e' e'' : Engine δ α} {nl : Netlist} {n : NetId} {r : Relocation} {pin : Pin}

namespace SameCommitted

theorem refl (e : Engine δ α) : SameCommitted e e :=
  ⟨rfl, rfl, rfl, rfl, rfl, rfl, rfl, rfl, .refl _⟩

theorem trans (h : SameCommitted e e') (h' : SameCommitted e' e'') : SameCommitted e e'' :=
  ⟨h'.interior.trans h.interior, h'.factors.trans h.factors, h'.options.trans h.options,
    h'.form.trans h.form, h'.layers.trans h.layers, h'.geometries.trans h.geometries,
    h'.size.trans h.size, h'.costs.trans h.costs, h.timings.trans h'.timings⟩

theorem setup (h : SameCommitted e e') : SameSetup e e' :=
  ⟨h.interior, h.factors, h.form, h.layers⟩

/-- The geometries are the same up to proposals. -/
theorem geometry (h : SameCommitted e e') :
    e'.geometry = { e.geometry with proposed := e'.geometry.proposed } := by
  dsimp only
  rw [← h.form, ← h.layers, ← h.geometries]

theorem nets_size (h : SameCommitted e e') : e'.nets.size = e.nets.size := by
  simpa using congrArg Array.size h.costs

/-- The state of a net has the same cost, and is ignored or not, as before. -/
theorem net (h : SameCommitted e e') {i : Nat} {s' : NetState α} (hs : e'.nets[i]? = some s') :
    ∃ s, e.nets[i]? = some s ∧ s'.cost = s.cost ∧ s'.ignored = s.ignored := by
  have hmap := congrArg (·[i]?) h.costs
  simp only [Array.getElem?_map, hs, Option.map_some] at hmap
  obtain ⟨s, hold, heq⟩ := Option.map_eq_some_iff.1 hmap.symm
  exact ⟨s, hold, congrArg Prod.fst heq.symm, congrArg Prod.snd heq.symm⟩

theorem net' (h : SameCommitted e e') {i : Nat} {s : NetState α} (hs : e.nets[i]? = some s) :
    ∃ s', e'.nets[i]? = some s' ∧ s'.cost = s.cost ∧ s'.ignored = s.ignored := by
  have hlt : i < e'.nets.size := by
    rw [h.nets_size]
    exact (Array.getElem?_eq_some_iff.1 hs).1
  obtain ⟨s₀, hs₀, hcost, hignored⟩ := h.net (Array.getElem?_eq_getElem hlt)
  obtain rfl : s = s₀ := by simpa [hs] using hs₀
  exact ⟨_, Array.getElem?_eq_getElem hlt, hcost, hignored⟩

/-- The same nets are visited. -/
theorem visitedNet_eq (h : SameCommitted e e') (nl : Netlist) (p : PinId) :
    e'.visitedNet nl p = e.visitedNet nl p := by
  have hany : ∀ i : Nat, e'.nets[i]?.any (!·.ignored) = e.nets[i]?.any (!·.ignored) := by
    intro i
    have hmap := congrArg (fun xs => xs[i]?.any (!·.2)) h.costs
    simpa [Array.getElem?_map, Option.any_map, Function.comp_def] using hmap
  simp only [visitedNet, hany]

end SameCommitted

/-- Changing other things about a net than its cost. -/
theorem sameCommitted_updateNet (e : Engine δ α) (n : NetId) {f : NetState α → NetState α}
    (hf : ∀ s, (f s).cost = s.cost ∧ (f s).ignored = s.ignored) :
    SameCommitted e (e.updateNet n f) where
  interior := rfl
  factors := rfl
  options := rfl
  form := rfl
  layers := rfl
  geometries := rfl
  size := rfl
  costs := by
    apply Array.ext_getElem?
    intro i
    rw [Array.getElem?_map, Array.getElem?_map, updateNet, Array.getElem?_modify]
    split
    · cases e.nets[i]? with
      | none => rfl
      | some s => simp [hf s]
    · rfl
  timings := .refl _

theorem sameCommitted_proposing (e : Engine δ α) (n : NetId) (g : Geometry) (update : NetUpdate) :
    SameCommitted e (e.proposing n g update) := by
  have hupdate := sameCommitted_updateNet { e with geometry := e.geometry.withProposed n g } n
    (f := fun s => { s with update }) fun _ => ⟨rfl, rfl⟩
  exact { hupdate with size := hupdate.size.trans Array.size_setIfInBounds }

theorem Followed.sameCommitted (h : Followed e nl n r pin e') : SameCommitted e e' := by
  cases h with
  | already => exact .refl e
  | adjusted => exact sameCommitted_proposing ..
  | small => exact sameCommitted_proposing ..
  | refused => exact sameCommitted_proposing ..

/-- What differs between two engines of which the second one has looked at one net: the first state
of that net is `s`, and the second one is `s'`. -/
structure OnlyNet (e e' : Engine δ α) (n : NetId) (s s' : NetState α) : Prop where
  old : e.nets[n.toNat]? = some s
  new : e'.nets[n.toNat]? = some s'
  nets : ∀ i, n.toNat ≠ i → e'.nets[i]? = e.nets[i]?
  proposed : ∀ i, n.toNat ≠ i → e'.geometry.proposed[i]? = e.geometry.proposed[i]?
  pending : e'.pending = e.pending

theorem OnlyNet.trans {s s' s'' : NetState α} (h : OnlyNet e e' n s s')
    (h' : OnlyNet e' e'' n s' s'') : OnlyNet e e'' n s s'' where
  old := h.old
  new := h'.new
  nets := fun i hi => (h'.nets i hi).trans (h.nets i hi)
  proposed := fun i hi => (h'.proposed i hi).trans (h.proposed i hi)
  pending := h'.pending.trans h.pending

theorem onlyNet_updateNet {s : NetState α} (hs : e.nets[n.toNat]? = some s)
    (f : NetState α → NetState α) : OnlyNet e (e.updateNet n f) n s (f s) where
  old := hs
  new := getElem?_modify_eq_some.2 ⟨s, hs, if_pos rfl⟩
  nets := by
    intro i hi
    rw [updateNet, Array.getElem?_modify, if_neg hi]
  proposed := fun _ _ => rfl
  pending := rfl

theorem onlyNet_proposing {s : NetState α} (hs : e.nets[n.toNat]? = some s) (g : Geometry)
    (update : NetUpdate) : OnlyNet e (e.proposing n g update) n s { s with update } := by
  have hupdate := onlyNet_updateNet (e := { e with geometry := e.geometry.withProposed n g }) hs
    fun s => { s with update }
  refine ⟨hs, hupdate.new, hupdate.nets, fun i hi => ?_, rfl⟩
  exact Array.getElem?_setIfInBounds_ne hi

/-- Following a pin marks its net as touched, in one way or another. -/
theorem Followed.onlyNet (h : Followed e nl n r pin e') : ∃ s update, update ≠ .untouched ∧
    OnlyNet e e' n s { s with update } ∧ e'.affected = e.affected := by
  cases h with
  | @already s hs hdone =>
    refine ⟨s, .rescanned, by decide, ⟨hs, ?_, fun _ _ => rfl, fun _ _ => rfl, rfl⟩, rfl⟩
    rw [hs, ← hdone]
  | adjusted hs => exact ⟨_, .adjusted, by decide, onlyNet_proposing hs .., rfl⟩
  | small hs => exact ⟨_, .rescanned, by decide, onlyNet_proposing hs .., rfl⟩
  | refused hs => exact ⟨_, .rescanned, by decide, onlyNet_proposing hs .., rfl⟩

variable [CostScalar α]

/-- Touching a net lists it, unless it has a proposed cost already. -/
theorem onlyNet_touch {s : NetState α} (hs : e.nets[n.toNat]? = some s) :
    ∃ cost, OnlyNet e (e.touch n s) n s { s with proposed := some cost } ∧
      (e.touch n s).affected =
        if s.proposed.isSome then e.affected else e.affected ++ [n] := by
  rw [touch]
  split
  · rename_i hsome
    obtain ⟨cost, hcost⟩ := Option.isSome_iff_exists.1 hsome
    refine ⟨cost, ⟨hs, ?_, fun _ _ => rfl, fun _ _ => rfl, rfl⟩, rfl⟩
    rw [hs, ← hcost]
  · have hupdate := onlyNet_updateNet hs fun s => { s with proposed := some zero }
    exact ⟨zero, ⟨hs, hupdate.new, hupdate.nets, hupdate.proposed, rfl⟩, rfl⟩

theorem sameCommitted_touch (e : Engine δ α) (n : NetId) (s : NetState α) :
    SameCommitted e (e.touch n s) := by
  rw [touch]
  split
  · exact .refl e
  · have hupdate := sameCommitted_updateNet e n (f := fun s => { s with proposed := some zero })
      fun _ => ⟨rfl, rfl⟩
    exact { hupdate with }

variable [DelayScalar δ α] {m : Move} {timing : Option (TimingInputs δ)} {p : PinId}
  {delta delta' : α}

/-- **A visit leaves the committed tables alone.** -/
theorem Visited.sameCommitted (h : Visited nl m timing r p e delta e' delta') :
    SameCommitted e e' := by
  cases h with
  | passed => exact .refl e
  | @counted n _ s _ _ _ _ _ _ _ hfollow htime =>
    have hbefore := (sameCommitted_touch e n s).trans hfollow.sameCommitted
    have htimings := ConnectionTable.sameCommitted_visit htime
    exact { hbefore with timings := htimings }

/-- **What a visit changes:** nothing, or only the net that it visits. That net is listed if it had
no proposed cost, and it is marked as touched. -/
theorem Visited.effect (h : Visited nl m timing r p e delta e' delta') :
    (e.visitedNet nl p = none ∧ e' = e) ∨
      ∃ n s cost update, e.visitedNet nl p = some n ∧ update ≠ .untouched ∧
        OnlyNet e e' n s { s with proposed := some cost, update } ∧
        e'.affected = if s.proposed.isSome then e.affected else e.affected ++ [n] := by
  cases h with
  | passed hpin hpass => exact .inl ⟨visitedNet_eq_none hpin hpass, rfl⟩
  | @counted n pin s e₁ t _ hpin hnet hs hcounted hfollow _ =>
    obtain ⟨cost, htouch, haffected⟩ := onlyNet_touch hs
    obtain ⟨s₁, update, hupdate, hmark, hsame⟩ := hfollow.onlyNet
    -- the pin is followed from the state in which touching has left the net
    obtain rfl : { s with proposed := some cost } = s₁ := by
      simpa using htouch.new.symm.trans hmark.old
    have hboth := htouch.trans hmark
    refine .inr ⟨n, s, cost, update, visitedNet_eq_some.2 ⟨⟨pin, hpin, hnet⟩, s, hs, hcounted⟩,
      hupdate, ⟨hboth.old, hboth.new, hboth.nets, hboth.proposed, hboth.pending⟩, ?_⟩
    exact hsame.trans haffected

end Engine

end WireCost
