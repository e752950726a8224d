import WireCost.Proofs.Engine.Pending
import WireCost.Proofs.Engine.Ready

/-! # What no operation changes

* **`Engine.SameMake`** — two engines with the same setup and options, for as many nets.
* **`Engine.Orderly.sameMake`**, **`Engine.Orderly.runAll`** — no operation changes that, nor does
  any sequence of operations.
* **`Engine.equipped_ofDevice`**, **`Engine.Reachable.equipped`** — every engine that operations
  lead to has factors for its interior.
* **`Engine.MadeFor`** — an engine with the setup that a device and settings give;
  **`Engine.MadeFor.ofDevice_iff`** — a new engine for them has the same setup.
* **`Engine.Suits`** — an engine between two moves, whatever it has committed, that is for as many
  nets as a netlist has. -/

namespace WireCost.Engine

variable {δ α : Type} {e e' e'' : Engine δ α} {nl : Netlist}

/-- **Two engines of the same make:** they have the same setup and options, and as many nets. -/
structure SameMake (e e' : Engine δ α) : Prop where
  setup : SameSetup e e'
  options : e'.options = e.options
  size : e'.nets.size = e.nets.size

namespace SameMake

theorem refl (e : Engine δ α) : SameMake e e := ⟨⟨rfl, rfl, rfl, rfl⟩, rfl, rfl⟩

theorem trans (h : SameMake e e') (h' : SameMake e' e'') : SameMake e e'' :=
  ⟨h.setup.trans h'.setup, h'.options.trans h.options, h'.size.trans h.size⟩

theorem symm (h : SameMake e e') : SameMake e' e :=
  ⟨h.setup.symm, h.options.symm, h.size.symm⟩

/-- They number the nets alike. -/
theorem netIds (h : SameMake e e') : e'.netIds = e.netIds := by
  rw [Engine.netIds, Engine.netIds, h.size]

end SameMake

variable [CostScalar α]

theorem Rebuilding.sameMake {ns : List NetId} (h : Rebuilding e nl ns e') : SameMake e e' :=
  ⟨h.setup, by rw [h.rest], h.netsSize⟩

variable [DelayScalar δ α] {op : Operation δ α} {answer : Answer α} {device : Device}
  {settings : CostSettings α} {findings : List (Finding α)}

theorem sameMake_of_recomputeTiming {inputs : TimingInputs δ} {total : α}
    (h : e.recomputeTiming nl inputs = .ok (e', total)) : SameMake e e' := by
  obtain ⟨-, t, -, rfl⟩ := recomputeTiming_eq_ok.1 h
  exact ⟨⟨rfl, rfl, rfl, rfl⟩, rfl, rfl⟩

/-- **No operation changes the make** of an engine. -/
theorem Orderly.sameMake (h : e.Orderly) (hrun : op.run e = .ok (e', answer)) : SameMake e e' := by
  cases op with
  | evaluate nl m timing =>
    obtain ⟨⟨e₁, o⟩, heval, heq⟩ := Checked.bind_eq_ok.1 hrun
    cases heq
    have hsame := (h.evaluated heval).same
    exact ⟨hsame.setup, hsame.options, hsame.nets_size⟩
  | commit =>
    obtain ⟨e₁, hcommit, heq⟩ := Checked.bind_eq_ok.1 hrun
    cases heq
    have haccepted := h.accepted hcommit
    exact ⟨haccepted.setup, by rw [haccepted.rest], haccepted.netsSize⟩
  | rollback =>
    obtain ⟨e₁, hrollback, heq⟩ := Checked.bind_eq_ok.1 hrun
    cases heq
    -- the committed geometries stay, and there are as many of them as nets
    have hsize := (h.rollback hrollback).committedSize
    obtain ⟨-, rfl⟩ := rollback_eq_ok.1 hrollback
    exact ⟨⟨rfl, rfl, rfl, rfl⟩, rfl, hsize.symm.trans h.committedSize⟩
  | rebuild nl withLength =>
    obtain ⟨⟨e₁, report⟩, hrebuild, heq⟩ := Checked.bind_eq_ok.1 hrun
    cases heq
    exact (rebuilding_of_rebuild hrebuild).sameMake
  | recomputeBoxCost =>
    obtain ⟨cost, -, heq⟩ := Checked.bind_eq_ok.1 hrun
    cases heq
    exact .refl e
  | recomputeTiming nl inputs =>
    obtain ⟨⟨e₁, cost⟩, htiming, heq⟩ := Checked.bind_eq_ok.1 hrun
    cases heq
    exact sameMake_of_recomputeTiming htiming
  | checkTotals nl totals timing =>
    obtain ⟨check, hcheck, heq⟩ := Checked.bind_eq_ok.1 hrun
    cases heq
    obtain hsame | ⟨inputs, total, -, htiming⟩ := (checkTotals_ends.1 hcheck).engine
    · rw [hsame]
      exact .refl e
    · exact sameMake_of_recomputeTiming htiming
  | verify nl =>
    obtain ⟨⟨e₁, found⟩, hverify, heq⟩ := Checked.bind_eq_ok.1 hrun
    cases heq
    rw [(frame_of_verify hverify).1]
    exact ⟨⟨rfl, rfl, rfl, rfl⟩, rfl, rfl⟩

/-- **No sequence of operations** changes the make of an engine, nor the order of its marks. -/
theorem Orderly.runAll {ops : List (Operation δ α)} (h : e.Orderly)
    (hrun : e.runAll ops = .ok e') : e'.Orderly ∧ SameMake e e' := by
  refine Checked.foldlM_induct (fun _ e' => e'.Orderly ∧ SameMake e e') ⟨h, .refl e⟩ ?_ hrun
  rintro _ op _ e₁ _ - ⟨horderly, hmake⟩ hstep
  obtain ⟨⟨e₂, answer⟩, hop, heq⟩ := Checked.bind_eq_ok.1 hstep
  cases heq
  exact ⟨horderly.run hop, hmake.trans (horderly.sameMake hop)⟩

/-! ## Engines for a device -/

/-- A new engine is for as many nets as there are. -/
theorem size_ofDevice (h : ofDevice nl device settings = .ok (.ok (e, findings))) :
    e.nets.size = nl.nets.size := by
  obtain ⟨_, _, _, -, -, hnew, -⟩ := ofDevice_eq_ok.1 h
  rw [(rebuilding_ofFactors hnew).netsSize, size_nets_unmeasured]

/-- **A new engine for a device** has factors for its interior. -/
theorem equipped_ofDevice (h : ofDevice nl device settings = .ok (.ok (e, findings))) :
    e.Equipped := by
  obtain ⟨interior, factors, bare, hinterior, hfactors, hnew, -⟩ := ofDevice_eq_ok.1 h
  exact equipped_ofFactors (ChannelFactors.isOpen_of_ofDevice hinterior hfactors)
    (ChannelFactors.cover_ofDevice hinterior hfactors) hnew

/-- **So has every engine** that operations lead to. -/
theorem Reachable.equipped (h : e.Reachable) : e.Equipped := by
  induction h with
  | new h => exact equipped_ofDevice h
  | step he hrun ih => exact ih.of_same (he.orderly.sameMake hrun).setup

/-- An engine that has not looked at any net is of the same make as the one whose setup it has. -/
theorem Equipped.sameMake_unmeasured (h : e.Equipped)
    (hsize : e.nets.size = nl.nets.size) :
    SameMake e (unmeasured e.interior e.factors e.form e.options nl) :=
  ⟨⟨rfl, rfl, rfl, h.layers.symm⟩, rfl, by rw [size_nets_unmeasured, hsize]⟩

/-- **An engine made for a device and settings,** and for as many nets as there is room for. -/
structure MadeFor (device : Device) (settings : CostSettings α) (e : Engine δ α) : Prop where
  interior : Interior.ofDevice device = .ok (.ok e.interior)
  factors : ∃ bare, ChannelFactors.ofDevice device settings.exponent = .ok (e.factors, bare)
  form : e.form = formFor settings.form e.interior.layers
  options : e.options = ⟨settings.smallNet, settings.tolerance⟩
  room : GeometryTable.requireRoom e.form e.nets.size e.interior.layers = .ok ()

namespace MadeFor

/-- A new engine is made for its device and settings. -/
theorem ofDevice (h : ofDevice nl device settings = .ok (.ok (e, findings))) :
    e.MadeFor device settings := by
  have hsize := size_ofDevice h
  obtain ⟨interior, factors, bare, hinterior, hfactors, hnew, -⟩ := ofDevice_eq_ok.1 h
  have hroom := room_ofFactors hnew
  obtain ⟨rfl, rfl, hform, hoptions⟩ := setup_ofFactors hnew
  exact ⟨hinterior, ⟨bare, hfactors⟩, hform, hoptions, hsize ▸ hroom⟩

omit [DelayScalar δ α] in
theorem of_same (h : e.MadeFor device settings) (hmake : SameMake e e') :
    e'.MadeFor device settings where
  interior := by rw [hmake.setup.interior, h.interior]
  factors := by
    rw [hmake.setup.factors]
    exact h.factors
  form := by rw [hmake.setup.form, hmake.setup.interior, h.form]
  options := by rw [hmake.options, h.options]
  room := by rw [hmake.setup.form, hmake.setup.interior, hmake.size, h.room]

/-- **A new engine** for the same device and settings has the same setup. -/
theorem ofDevice_iff {fresh : Engine δ α} (h : e.MadeFor device settings) :
    (∃ findings, Engine.ofDevice nl device settings = .ok (.ok (fresh, findings))) ↔
      ofFactors e.interior e.factors e.form e.options nl = .ok fresh := by
  obtain ⟨bare, hfactors⟩ := h.factors
  simp only [ofDevice_eq_ok, h.interior, hfactors, h.form, h.options, Except.ok.injEq]
  constructor
  · rintro ⟨findings, interior, factors, bare', rfl, hsame, hnew, -⟩
    cases hsame
    exact hnew
  · exact fun hnew => ⟨_, e.interior, e.factors, bare, rfl, rfl, hnew, rfl⟩

end MadeFor

/-! ## Engines for a netlist -/

/-- **An engine that a netlist suits:** it is orderly and idle, has factors for its interior, and is
for as many nets as the netlist has, whose tables agree. Nothing is said of what it has
committed. -/
structure Suits (nl : Netlist) (e : Engine δ α) : Prop where
  orderly : e.Orderly
  idle : e.pending = false
  equipped : e.Equipped
  consistent : nl.Consistent
  size : e.nets.size = nl.nets.size

namespace Suits

omit [CostScalar α] [DelayScalar δ α] in
theorem room (h : e.Suits nl) : e.nets.size ≤ Word.size32 := h.size ▸ h.consistent.nets.room.le

omit [DelayScalar δ α] in
/-- A rebuild leaves an engine behind that the netlist suits. -/
theorem rebuilding (h : e.Suits nl) (hdone : Rebuilding e nl e.netIds e') : e'.Suits nl where
  orderly := h.orderly.rebuilding h.idle hdone
  idle := hdone.pending.trans h.idle
  equipped := h.equipped.of_same hdone.setup
  consistent := h.consistent
  size := hdone.netsSize.trans h.size

omit [DelayScalar δ α] in
/-- Such a rebuild tracks the placement. -/
theorem tracks (h : e.Suits nl) (hdone : Rebuilding e nl e.netIds e') : e'.Tracks nl :=
  tracks_of_rebuilding h.consistent h.size h.equipped.layers h.equipped.inside.layers hdone

/-- An engine that has not looked at any net suits the netlist as well. -/
theorem unmeasured (h : e.Suits nl) :
    (Engine.unmeasured e.interior e.factors e.form e.options nl : Engine δ α).Suits nl where
  orderly := orderly_unmeasured e.interior e.factors e.form e.options nl
  idle := rfl
  equipped := h.equipped.of_same (h.equipped.sameMake_unmeasured h.size).setup
  consistent := h.consistent
  size := size_nets_unmeasured

end Suits

end WireCost.Engine
