import WireCost.Proofs.Engine.Ready
import WireCost.Proofs.Engine.TimedRun

/-! # Legal runs

* **`Session.LegalFrom`** — calls each of which may be made when it comes up.
* **`Session.Safe`** — between two moves the engine is ready, and a pending move was evaluated by an
  engine that was.
* **`Session.Safe.progress`**, **`Session.Safe.run`** — a legal call succeeds and keeps that up.
* **`Engine.legal_run_never_faults`** — no run of legal calls stops with a fault. -/

namespace WireCost

variable {δ α : Type} [CostScalar α] [DelayScalar δ α]

namespace Session

variable {layers : Nat} {s s' : Session δ α} {call : Call δ α} {calls : List (Call δ α)}

/-! ## Legal calls -/

omit [CostScalar α] in
/-- **What a call may bring along:** moves near a device with some layers, and timing inputs that
serve the netlist at the placement for which they are asked. -/
def Call.Proper (layers : Nat) (s : Session δ α) : Call δ α → Prop
  | .propose m timing =>
    m.IsNear layers s.netlist ∧
      ∀ inputs ∈ timing, ∀ placed, s.netlist.apply m = .ok placed → inputs.Serves placed
  | .recomputeTiming inputs => inputs.Serves s.netlist
  | .checkTotals _ timing => ∀ inputs ∈ timing, inputs.Serves s.netlist
  | .accept | .reject | .rebuild _ | .recomputeBoxCost | .verify => True

/-- **Calls that may be made one after the other:** each is legal when it comes up. -/
def LegalFrom (layers : Nat) (s : Session δ α) : List (Call δ α) → Prop
  | [] => True
  | call :: calls => call.Legal s ∧ call.Proper layers s ∧
      ∀ s', s.run call = .ok s' → LegalFrom layers s' calls

/-! ## Safe sessions -/

/-- **What is known of a session on a device.** Between two moves the engine is ready. While a move
is pending, it has been applied to the placement and evaluated by an engine that was. -/
inductive Safe (layers : Nat) : Session δ α → Prop where
  | between {nl : Netlist} {e : Engine δ α} (h : e.Ready nl)
      (hlayers : e.interior.layers = layers) : Safe layers ⟨nl, e, none⟩
  | pending {nl placed : Netlist} {e e' : Engine δ α} {m : Move} {timing : Option (TimingInputs δ)}
      {o : Outcome α} (h : e.Ready nl) (hlayers : e.interior.layers = layers) (hm : m.Fits nl)
      (happly : nl.apply m = .ok placed) (hplaced : placed.Routable e.interior.layers)
      (heval : e.evaluate placed m timing = .ok (e', o)) : Safe layers ⟨placed, e', some m⟩

namespace Safe

theorem sound (h : s.Safe layers) : s.Sound := by
  cases h with
  | between h => exact .between h.steady
  | pending h _ hm happly _ heval => exact .pending h.steady hm happly heval

/-- **A legal call succeeds.** -/
theorem progress (h : s.Safe layers) (hlegal : call.Legal s) (hproper : call.Proper layers s) :
    ∃ s', s.run call = .ok s' := by
  cases h with
  | @between nl e h hlayers =>
    subst hlayers
    cases call with
    | propose m timing =>
      obtain ⟨-, hm⟩ := hlegal
      have happly := (Netlist.apply_eq_ok hm).2 rfl
      obtain ⟨e', o, heval⟩ :=
        h.exists_evaluate hm happly (h.routable.apply hproper.1 hm happly)
          fun inputs hin => hproper.2 inputs hin _ happly
      exact ⟨_, by rw [run, happly, Checked.ok_bind, heval, Checked.ok_bind]⟩
    | accept => exact absurd rfl hlegal
    | reject => exact absurd rfl hlegal
    | rebuild withLength =>
      obtain ⟨e', report, hcall⟩ := h.exists_rebuild withLength
      exact ⟨_, by rw [run, hcall, Checked.ok_bind]⟩
    | recomputeBoxCost =>
      have hcheckable : e.Checkable nl none := h.steady.checkable nofun
      obtain ⟨cost, hcall⟩ := hcheckable.exists_recomputeBoxCost
      exact ⟨_, by rw [run, hcall, Checked.ok_bind]⟩
    | recomputeTiming inputs =>
      have hcheckable : e.Checkable nl (some inputs) :=
        h.steady.checkable fun _ hin => Option.some.inj hin ▸ hproper
      obtain ⟨e', total, hcall⟩ := hcheckable.exists_recomputeTiming
      exact ⟨_, by rw [run, hcall, Checked.ok_bind]⟩
    | checkTotals totals timing =>
      obtain ⟨check, hcall⟩ := (h.steady.checkable hproper).exists_checkTotals totals
      exact ⟨_, by rw [run, hcall, Checked.ok_bind]⟩
    | verify =>
      obtain ⟨e', found, hcall⟩ := h.exists_verify
      exact ⟨_, by rw [run, hcall, Checked.ok_bind]⟩
  | @pending nl placed e e' m timing o h hlayers hm happly hplaced heval =>
    have horderly := h.steady.orderly
    have hpending := (horderly.evaluated heval).pending
    cases call with
    | accept =>
      obtain ⟨e'', hcommit⟩ := (horderly.evaluate heval).exists_commit hpending
      exact ⟨_, by rw [run, hcommit, Checked.ok_bind]⟩
    | reject =>
      obtain ⟨e'', hrollback⟩ : ∃ e'', e'.rollback = .ok e'' :=
        ⟨_, Engine.rollback_eq_ok.2 ⟨hpending, rfl⟩⟩
      refine ⟨⟨nl, e'', none⟩, ?_⟩
      rw [run, hrollback, Checked.ok_bind, Option.getD_some, Netlist.revert_apply hm happly,
        Checked.ok_bind]
    | propose m' timing' => cases hlegal.1
    | rebuild withLength => cases hlegal
    | recomputeBoxCost => cases hlegal
    | recomputeTiming inputs => cases hlegal
    | checkTotals totals timing' => cases hlegal
    | verify => cases hlegal

/-- **A legal call keeps a session safe.** -/
theorem run (h : s.Safe layers) (hlegal : call.Legal s) (hproper : call.Proper layers s)
    (hrun : s.run call = .ok s') : s'.Safe layers := by
  obtain ⟨hsound, hsetup⟩ := h.sound.run hlegal hrun
  cases h with
  | @between nl e h hlayers =>
    -- whatever is recomputed, the placement stays
    have hkept : ∀ {e' : Engine δ α}, (⟨nl, e', none⟩ : Session δ α).Sound →
        Engine.SameSetup e e' → Safe layers ⟨nl, e', none⟩ := fun hsound hsetup =>
      .between (h.of_steady hsound.steady hsetup h.routable) (hsetup.interior ▸ hlayers)
    cases call with
    | propose m timing =>
      obtain ⟨placed, happly, hrun⟩ := Checked.bind_eq_ok.1 hrun
      obtain ⟨⟨e', o⟩, heval, heq⟩ := Checked.bind_eq_ok.1 hrun
      cases heq
      exact .pending h hlayers hlegal.2 happly
        (h.routable.apply (hlayers ▸ hproper.1) hlegal.2 happly) heval
    | accept => exact absurd rfl hlegal
    | reject => exact absurd rfl hlegal
    | recomputeBoxCost =>
      obtain ⟨cost, -, heq⟩ := Checked.bind_eq_ok.1 hrun
      cases heq
      exact hkept hsound hsetup
    | rebuild withLength | recomputeTiming inputs | checkTotals totals timing | verify =>
      obtain ⟨result, -, heq⟩ := Checked.bind_eq_ok.1 hrun
      cases heq
      exact hkept hsound hsetup
  | @pending nl placed e e' m timing o h hlayers hm happly hplaced heval =>
    have hevaluated := (h.steady.orderly.evaluated heval).same.setup.trans hsetup
    have hlayers' := hevaluated.interior ▸ hlayers
    cases call with
    | accept =>
      obtain ⟨e'', hcommit, heq⟩ := Checked.bind_eq_ok.1 hrun
      cases heq
      exact .between (h.of_steady hsound.steady hevaluated hplaced) hlayers'
    | reject =>
      obtain ⟨e'', hrollback, hrun⟩ := Checked.bind_eq_ok.1 hrun
      obtain ⟨nl', hrevert, heq⟩ := Checked.bind_eq_ok.1 hrun
      cases heq
      obtain rfl := Netlist.eq_of_revert hm happly hrevert
      exact .between (h.of_steady hsound.steady hevaluated h.routable) hlayers'
    | propose m' timing' => cases hlegal.1
    | rebuild withLength => cases hlegal
    | recomputeBoxCost => cases hlegal
    | recomputeTiming inputs => cases hlegal
    | checkTotals totals timing' => cases hlegal
    | verify => cases hlegal

/-- **While a move is pending,** all that it proposes passes. -/
theorem passes (h : s.Safe layers) (hpending : s.move.isSome) : ∀ n ∈ s.engine.affected, ∃ g,
    s.engine.geometry.proposedOf n = .ok g ∧ g.Passes s.engine.interior s.engine.factors := by
  cases h with
  | between => cases hpending
  | pending h _ hm happly _ heval => exact fun n hn => h.passes hm happly heval hn

/-- **Legal calls all succeed,** one after the other. -/
theorem exists_run (h : s.Safe layers) (hcalls : s.LegalFrom layers calls) :
    ∃ s', calls.foldlM Session.run s = .ok s' ∧ s'.Safe layers := by
  induction calls generalizing s with
  | nil => exact ⟨s, rfl, h⟩
  | cons call calls ih =>
    obtain ⟨hlegal, hproper, hrest⟩ := hcalls
    obtain ⟨s₁, hrun⟩ := h.progress hlegal hproper
    obtain ⟨s', hruns, hsafe⟩ := ih (h.run hlegal hproper hrun) (hrest s₁ hrun)
    exact ⟨s', by rw [List.foldlM_cons, hrun, Checked.ok_bind, hruns], hsafe⟩

end Safe

end Session

namespace Engine

variable {nl : Netlist} {device : Device} {settings : CostSettings α}

/-- **A new engine can be built** for a routable netlist on a device whose sides are words, if there
is room for its tables. -/
theorem exists_ofDevice (hnl : nl.Routable device.layers.toNat) (hwidth : 3 ≤ device.width)
    (hwidthWord : device.width.toNat < Word.size31) (hheight : 3 ≤ device.height)
    (hheightWord : device.height.toNat < Word.size31) (hlayers : device.layers ≠ 0)
    (hrows : ChannelFactors.requireRoom device.height.toNat = .ok ())
    (hcolumns : ChannelFactors.requireRoom device.width.toNat = .ok ())
    (hroom : GeometryTable.requireRoom (formFor settings.form device.layers.toNat) nl.nets.size
      device.layers.toNat = .ok ()) :
    ∃ (e : Engine δ α) (findings : List (Finding α)),
      ofDevice nl device settings = .ok (.ok (e, findings)) ∧ e.Ready nl ∧
        e.interior.layers = device.layers.toNat := by
  obtain ⟨interior, hinterior, hopen, heq⟩ :=
    Interior.exists_ofDevice hwidth hwidthWord hheight hheightWord hlayers
  obtain ⟨factors, bare, hfactors⟩ :=
    ChannelFactors.exists_ofDevice settings.exponent hrows hcolumns
  have hcover := ChannelFactors.cover_ofDevice hinterior hfactors
  rw [← heq] at hnl hroom ⊢
  obtain ⟨e, hnew⟩ := exists_ofFactors (δ := δ) hopen hcover (hnl.measurable hopen) hroom
    ⟨settings.smallNet, settings.tolerance⟩
  have hsteady := steady_ofFactors hnl.consistent hopen.layers hnew
  have hdevice := ofDevice_eq_ok.2 ⟨interior, factors, bare, hinterior, hfactors, hnew, rfl⟩
  obtain ⟨rfl, rfl, -⟩ := setup_ofFactors hnew
  exact ⟨e, _, hdevice, ⟨hsteady, ⟨hsteady.tracks.layers, hopen, hcover⟩, hnl⟩, rfl⟩

/-- **No run of legal calls stops with a fault.** Take a built netlist with fewer than `2 ^ 31`
pins, whose nets have drivers and are near the device unless they are ignored; a device with a
layer, whose sides are words of at least three; any box form and threshold; and let there be room
for the channel factors and the geometries. Then an engine can be built, and calls can be made as
long as each is legal when it comes up. Whenever a move is pending, the boxes proposed for the nets
that it touches lie in the interior with pins on all their edges, the channel factors beside them
are listed, and no sink count is negative. -/
theorem legal_run_never_faults (hnl : nl.Built) (hpins : nl.pins.size < Word.size31)
    (hdriven : ∀ net ∈ nl.nets, net.ignored = false → net.driver.isSome)
    (hnear : nl.Near device.layers.toNat) (hwidth : 3 ≤ device.width)
    (hwidthWord : device.width.toNat < Word.size31) (hheight : 3 ≤ device.height)
    (hheightWord : device.height.toNat < Word.size31) (hlayers : device.layers ≠ 0)
    (hrows : ChannelFactors.requireRoom device.height.toNat = .ok ())
    (hcolumns : ChannelFactors.requireRoom device.width.toNat = .ok ())
    (hroom : GeometryTable.requireRoom (formFor settings.form device.layers.toNat) nl.nets.size
      device.layers.toNat = .ok ()) :
    ∃ (e : Engine δ α) (findings : List (Finding α)),
      ofDevice nl device settings = .ok (.ok (e, findings)) ∧
      ∀ calls, Session.LegalFrom device.layers.toNat ⟨nl, e, none⟩ calls →
        ∃ s, calls.foldlM Session.run ⟨nl, e, none⟩ = .ok s ∧
          (s.move.isSome → ∀ n ∈ s.engine.affected, ∃ g,
            s.engine.geometry.proposedOf n = .ok g ∧
              g.Passes s.engine.interior s.engine.factors) := by
  have hroutable : nl.Routable device.layers.toNat := ⟨hnl.consistent, hdriven, hpins, hnear⟩
  obtain ⟨e, findings, hnew, hready, heq⟩ := exists_ofDevice (δ := δ) hroutable hwidth hwidthWord
    hheight hheightWord hlayers hrows hcolumns hroom
  refine ⟨e, findings, hnew, fun calls hcalls => ?_⟩
  obtain ⟨s, hrun, hsafe⟩ := (Session.Safe.between hready heq).exists_run hcalls
  exact ⟨s, hrun, hsafe.passes⟩

end Engine

/-! ## A small run -/

namespace Sample

theorem near_netlist : netlist.Near device.layers.toNat := by
  have hall : ∀ pin ∈ netlist.pins, ∀ block ∈ netlist.blocks,
      (block.location.spot pin.offset).IsNear device.layers.toNat := by decide +kernel
  exact fun pin hpin _ block hblock => hall pin hpin block (Array.mem_of_getElem? hblock)

theorem isNear_move : move.IsNear device.layers.toNat netlist := by
  decide +kernel

/-- The inputs with which the small move is timed serve it. -/
theorem serves_timing : timing.Serves placed := by
  have hnetlist : netlist.Routable device.layers.toNat :=
    ⟨built_netlist.consistent, by decide +kernel, by decide +kernel, near_netlist⟩
  have hplaced := hnetlist.apply isNear_move fits_move apply_eq
  have hnets := (Netlist.apply_pins_nets fits_move apply_eq).2
  exact TimingInputs.serves_manhattan _ ((Criticality.isFor_uniform netlist _).congr hnets)
    hplaced.consistent hplaced.near hplaced.driven

/-- In the small session a move may be proposed and accepted, and then the boxes verified. -/
theorem legal_calls (e : Engine Rat Rat) : Session.LegalFrom device.layers.toNat
    ⟨netlist, e, none⟩ [.propose move (some timing), .accept, .verify] := by
  refine ⟨⟨rfl, fits_move⟩, ⟨isNear_move, ?_⟩, fun s hpropose => ?_⟩
  · rintro inputs ⟨⟩ placed' happly
    obtain rfl := Except.ok.inj (apply_eq.symm.trans happly)
    exact serves_timing
  obtain ⟨placed, -, hpropose⟩ := Checked.bind_eq_ok.1 hpropose
  obtain ⟨⟨e₁, o⟩, -, heq⟩ := Checked.bind_eq_ok.1 hpropose
  cases heq
  refine ⟨Option.some_ne_none _, trivial, fun s haccept => ?_⟩
  obtain ⟨e₂, -, heq⟩ := Checked.bind_eq_ok.1 haccept
  cases heq
  exact ⟨rfl, trivial, fun _ _ => trivial⟩

end Sample

namespace Engine

/-- On the small device a move of the small netlist can be proposed with timing and accepted, and
then the boxes can be verified. -/
theorem legal_run_never_faults_small : ∃ (e : Engine Rat Rat) (findings : List (Finding Rat)),
    ofDevice Sample.netlist Sample.device Sample.settings = .ok (.ok (e, findings)) ∧
    ∃ s, [.propose Sample.move (some Sample.timing), .accept, .verify].foldlM Session.run
      ⟨Sample.netlist, e, none⟩ = .ok s := by
  have hroom : GeometryTable.requireRoom (formFor Sample.settings.form Sample.device.layers.toNat)
    Sample.netlist.nets.size Sample.device.layers.toNat = .ok () := by decide +kernel
  obtain ⟨e, findings, hnew, hruns⟩ := legal_run_never_faults (δ := Rat) Sample.built_netlist
    (by decide +kernel) (by decide +kernel) Sample.near_netlist (by decide) (by decide) (by decide)
    (by decide) (by decide) (by decide) (by decide) hroom
  obtain ⟨s, hrun, -⟩ := hruns _ (Sample.legal_calls e)
  exact ⟨e, findings, hnew, s, hrun⟩

end Engine

/-! ## Devices that are too tall -/

namespace Sample

/-- A block and two nets without pins. -/
def undriven : Netlist :=
  (((Netlist.empty.addBlock "a" ⟨1, 1, 0, 0⟩).1.addNet "n").1.addNet "m").1

/-- The block drives the first net. -/
def drivenOnce : Netlist × PinId :=
  result (undriven.connectDriver ⟨0⟩ ⟨0⟩ .zero) (by decide +kernel)

/-- The block drives both nets. -/
def drivenTwice : Netlist × PinId :=
  result (drivenOnce.1.connectDriver ⟨1⟩ ⟨0⟩ .zero) (by decide +kernel)

/-- A device with one column and one row inside the perimeter, and `2 ^ 63` layers. -/
def tower : Device := ⟨3, 3, 9223372036854775808, [1, 1, 1], [1, 1, 1]⟩

theorem built_drivenTwice : drivenTwice.1.Built := by
  have hfirst : undriven.connectDriver ⟨0⟩ ⟨0⟩ .zero = .ok (drivenOnce.1, drivenOnce.2) :=
    eq_ok_result (by decide +kernel)
  have hsecond : drivenOnce.1.connectDriver ⟨1⟩ ⟨0⟩ .zero =
      .ok (drivenTwice.1, drivenTwice.2) := eq_ok_result (by decide +kernel)
  have hblock := Netlist.Built.empty.addBlock "a" ⟨1, 1, 0, 0⟩ (by decide)
  have hnets := (hblock.addNet "n" (by decide +kernel)).addNet "m" (by decide +kernel)
  exact (hnets.connectDriver (by decide +kernel) hfirst).connectDriver (by decide +kernel) hsecond

end Sample

namespace Engine

/-- **Without room for the geometries** no engine can be built: on a device with `2 ^ 63` layers the
boxes of two nets cannot be numbered. -/
theorem tower_overflows :
    Sample.drivenTwice.1.Built ∧ Sample.drivenTwice.1.pins.size < Word.size31 ∧
    (∀ net ∈ Sample.drivenTwice.1.nets, net.ignored = false → net.driver.isSome) ∧
    Sample.drivenTwice.1.Near Sample.tower.layers.toNat ∧ 3 ≤ Sample.tower.width ∧
    Sample.tower.width.toNat < Word.size31 ∧ 3 ≤ Sample.tower.height ∧
    Sample.tower.height.toNat < Word.size31 ∧ Sample.tower.layers ≠ 0 ∧
    (ofDevice Sample.drivenTwice.1 Sample.tower Sample.settings :
      Checked (Except DeviceDefect (Engine Rat Rat × List (Finding Rat)))) = .error .overflow := by
  have hall : ∀ pin ∈ Sample.drivenTwice.1.pins, ∀ block ∈ Sample.drivenTwice.1.blocks,
      (block.location.spot pin.offset).IsNear Sample.tower.layers.toNat := by decide +kernel
  refine ⟨Sample.built_drivenTwice, by decide +kernel, by decide +kernel,
    fun pin hpin _ block hblock => hall pin hpin block (Array.mem_of_getElem? hblock), by decide,
    by decide, by decide, by decide, by decide, ?_⟩
  -- the factors of the device can be told, but the boxes of two nets are too many
  have hinterior : Interior.ofDevice Sample.tower = .ok (.ok ⟨1, 1, 9223372036854775808⟩) := by
    decide +kernel
  obtain ⟨factors, bare, hfactors⟩ := ChannelFactors.exists_ofDevice (d := Sample.tower)
    Sample.settings.exponent (by decide) (by decide)
  have hroom : GeometryTable.requireRoom .perLayer Sample.drivenTwice.1.nets.size
      9223372036854775808 = .error .overflow := by decide +kernel
  have hform : formFor Sample.settings.form 9223372036854775808 = .perLayer := by decide
  simp only [ofDevice, hinterior, hfactors, Checked.ok_bind, hform, ofFactors, blank,
    GeometryTable.blank, hroom, Checked.error_bind]

end Engine

end WireCost
