import WireCost.Proofs.Engine.Leftovers
import WireCost.Proofs.Netlist.Relocate

/-! # Rejected moves

* **`Engine.replay`** — a sequence of operations, with all answers and all that can be read of the
  engine in between.
* **`Engine.Twins.replay`** — engines that differ in leftovers only cannot be told apart.
* **`Engine.rejected_move_invisible`** — after a move has been evaluated and rolled back, or after a
  verification, nothing tells that it ever happened. -/

namespace WireCost.Engine

variable {δ α : Type}

/-! ## Replaying operations -/

/-- What can be read of an engine. Of the proposed tables, that is what the pending move touches. -/
structure View (δ α : Type) where
  committed : Array Geometry
  nets : Array (NetState α)
  timings : Array (Connection δ α)
  pending : Bool
  proposed : List (NetId × Option Geometry)
  retimed : List (Nat × Option (Connection δ α))

/-- What can be read of an engine. -/
def view (e : Engine δ α) : View δ α where
  committed := e.geometry.committed
  nets := e.nets
  timings := e.connections.committed
  pending := e.pending
  proposed := if e.pending then e.affected.map fun n => (n, e.geometry.proposed[n.toNat]?) else []
  retimed := e.connections.touched.toList.map fun slot => (slot, e.connections.proposed[slot]?)

variable [CostScalar α] [DelayScalar δ α]

/-- **Does one operation after the other,** up to the first one that stops with a fault, and tells
what they answer and what can be read of the engine after each. -/
def replay (e : Engine δ α) : List (Operation δ α) → List (Checked (Answer α × View δ α))
  | [] => []
  | op :: ops =>
    match op.run e with
    | .error fault => [.error fault]
    | .ok (e', answer) => .ok (answer, e'.view) :: e'.replay ops

variable {e e' : Engine δ α}

/-- Two engines that cannot be told apart: they are alike, and while a move is pending they list the
same nets. -/
structure Twins (e e' : Engine δ α) : Prop where
  alike : Alike e e'
  orderly : e.Orderly
  affected : e.pending = true → e'.affected = e.affected

omit [CostScalar α] [DelayScalar δ α] in
/-- Of two twins the same can be read. -/
theorem Twins.view (h : Twins e e') : e'.view = e.view := by
  have hproposed : (if e'.pending then
      e'.affected.map fun n => (n, e'.geometry.proposed[n.toNat]?) else []) =
      if e.pending then e.affected.map fun n => (n, e.geometry.proposed[n.toNat]?) else [] := by
    rw [h.alike.pending]
    split
    · -- the listed nets are marked, so both propose the same for them
      rename_i hpending
      rw [h.affected hpending]
      refine List.map_congr_left fun n hn => ?_
      have hs := Array.getElem?_eq_getElem ((h.orderly.listed hpending).2 n hn)
      have hmark := (h.orderly.marked hpending _ _ hs (NetId.toNat_mem_map.2 hn)).2
      rw [h.alike.proposed n.toNat _ hs hmark]
    · rfl
  have hretimed : (e'.connections.touched.toList.map fun slot =>
      (slot, e'.connections.proposed[slot]?)) =
      e.connections.touched.toList.map fun slot => (slot, e.connections.proposed[slot]?) := by
    rw [h.alike.timings.touched_eq]
    refine List.map_congr_left fun slot hslot => ?_
    rw [h.alike.timings.touched slot (Array.mem_toList_iff.1 hslot)]
  rw [Engine.view, Engine.view, hproposed, hretimed, h.alike.committed, h.alike.nets,
    h.alike.timings.committed, h.alike.pending]

/-- An operation that neither starts nor ends a move. -/
structure Resting (e e' : Engine δ α) : Prop where
  pending : e'.pending = e.pending
  affected : e'.affected = e.affected

omit [DelayScalar δ α] in
theorem resting_of_rebuild {nl : Netlist} {withLength : Bool}
    {report : CostReport α × List (Finding α)} (h : e.rebuild nl withLength = .ok (e', report)) :
    Resting e e' := by
  rw [(rebuilding_of_rebuild h).rest]
  exact ⟨rfl, rfl⟩

theorem resting_of_recomputeTiming {nl : Netlist} {inputs : TimingInputs δ} {total : α}
    (h : e.recomputeTiming nl inputs = .ok (e', total)) : Resting e e' := by
  obtain ⟨-, t, -, rfl⟩ := recomputeTiming_eq_ok.1 h
  exact ⟨rfl, rfl⟩

theorem resting_of_checkTotals {nl : Netlist} {totals : Totals α}
    {timing : Option (TimingInputs δ)} {check : TotalsCheck δ α}
    (h : e.checkTotals nl totals timing = .ok check) : Resting e check.engine := by
  obtain heq | ⟨inputs, total, -, htiming⟩ := (checkTotals_ends.1 h).engine
  · rw [heq]
    exact ⟨rfl, rfl⟩
  · exact resting_of_recomputeTiming htiming

omit [DelayScalar δ α] in
theorem resting_of_verify {nl : Netlist} {found : Option (Mismatch α)}
    (h : e.verify nl = .ok (e', found)) : Resting e e' := by
  rw [(frame_of_verify h).1]
  exact ⟨rfl, rfl⟩

omit [CostScalar α] [DelayScalar δ α] in
/-- Such an operation leaves twins behind if what it leaves behind is alike. -/
theorem Twins.rest {x y : Engine δ α} (h : Twins e e') (hx : Resting e x) (hy : Resting e' y)
    (hxy : Alike x y) (hordered : x.Orderly) : Twins x y := by
  refine ⟨hxy, hordered, fun hpending => ?_⟩
  rw [hx.affected, hy.affected, h.affected (hx.pending ▸ hpending)]

/-- **Every operation answers the same on twins,** and leaves twins behind. -/
theorem Twins.run (h : Twins e e') (op : Operation δ α) : Checked.Agree
    (fun x y => Twins x.1 y.1 ∧ y.2 = x.2) (op.run e) (op.run e') := by
  cases op with
  | evaluate nl m timing =>
    refine (h.alike.evaluate.mono (S := fun x y => Twins x.1 y.1 ∧ y.2 = x.2) ?_).bind ?_
    · rintro ⟨x, o⟩ ⟨y, o'⟩ hx - ⟨⟨hxy, haffected⟩, ho⟩
      exact ⟨⟨hxy, h.orderly.evaluate hx, fun _ => haffected⟩, ho⟩
    · rintro ⟨x, o⟩ ⟨y, o'⟩ ⟨hxy, rfl⟩
      exact .ok ⟨hxy, rfl⟩
  | commit =>
    refine ((h.alike.commit h.orderly h.affected).mono (S := Twins) ?_).bind ?_
    · intro x y hx _ hxy
      refine ⟨hxy, h.orderly.commit hx, fun hpending => ?_⟩
      -- no move is pending after a commit
      rw [(h.orderly.accepted hx).rest] at hpending
      cases hpending
    · exact fun x y hxy => .ok ⟨hxy, rfl⟩
  | rollback =>
    refine ((h.alike.rollback h.orderly h.affected).mono (S := Twins) ?_).bind ?_
    · intro x y hx _ hxy
      refine ⟨hxy, h.orderly.rollback hx, fun hpending => ?_⟩
      -- nor after a rollback
      rw [(rollback_eq_ok.1 hx).2] at hpending
      cases hpending
    · exact fun x y hxy => .ok ⟨hxy, rfl⟩
  | rebuild nl withLength =>
    refine ((h.alike.rebuild withLength).mono
      (S := fun x y => Twins x.1 y.1 ∧ y.2 = x.2) ?_).bind ?_
    · rintro ⟨x, r⟩ ⟨y, r'⟩ hx hy ⟨hxy, hr⟩
      have hordered := h.orderly.rebuilding (rebuild_eq_ok.1 hx).1 (rebuilding_of_rebuild hx)
      exact ⟨h.rest (resting_of_rebuild hx) (resting_of_rebuild hy) hxy hordered, hr⟩
    · rintro ⟨x, r⟩ ⟨y, r'⟩ ⟨hxy, rfl⟩
      exact .ok ⟨hxy, rfl⟩
  | recomputeBoxCost =>
    rw [Operation.run, Operation.run, h.alike.recomputeBoxCost]
    exact .bind_same fun cost _ => .ok ⟨h, rfl⟩
  | recomputeTiming nl inputs =>
    refine (h.alike.recomputeTiming.mono (S := fun x y => Twins x.1 y.1 ∧ y.2 = x.2) ?_).bind ?_
    · rintro ⟨x, c⟩ ⟨y, c'⟩ hx hy ⟨hxy, hc⟩
      exact ⟨h.rest (resting_of_recomputeTiming hx) (resting_of_recomputeTiming hy) hxy
        (h.orderly.recomputeTiming hx), hc⟩
    · rintro ⟨x, c⟩ ⟨y, c'⟩ ⟨hxy, rfl⟩
      exact .ok ⟨hxy, rfl⟩
  | checkTotals nl totals timing =>
    refine ((h.alike.checkTotals totals).mono (S := fun x y => Twins x.engine y.engine ∧
      y = { x with engine := y.engine }) ?_).bind ?_
    · rintro x y hx hy ⟨hxy, hc⟩
      exact ⟨h.rest (resting_of_checkTotals hx) (resting_of_checkTotals hy) hxy
        (h.orderly.checkTotals hx), hc⟩
    · rintro x y ⟨hxy, hc⟩
      rw [hc]
      exact .ok ⟨hxy, rfl⟩
  | verify nl =>
    refine (h.alike.verify.mono (S := fun x y => Twins x.1 y.1 ∧ y.2 = x.2) ?_).bind ?_
    · rintro ⟨x, f⟩ ⟨y, f'⟩ hx hy ⟨hxy, hf⟩
      exact ⟨h.rest (resting_of_verify hx) (resting_of_verify hy) hxy (h.orderly.verify hx), hf⟩
    · rintro ⟨x, f⟩ ⟨y, f'⟩ ⟨hxy, rfl⟩
      exact .ok ⟨hxy, rfl⟩

/-- **Twins cannot be told apart** by any sequence of operations. -/
theorem Twins.replay (h : Twins e e') (ops : List (Operation δ α)) :
    e'.replay ops = e.replay ops := by
  -- induction on the operations; both stop at the same fault, or go on as twins
  induction ops generalizing e e' with
  | nil => rfl
  | cons op ops ih =>
    rw [Engine.replay, Engine.replay]
    have hop := h.run op
    generalize op.run e = x at hop
    generalize op.run e' = y at hop
    cases hop with
    | error fault => rfl
    | @ok a b hab =>
      obtain ⟨x, answer⟩ := a
      obtain ⟨y, answer'⟩ := b
      obtain ⟨hxy, rfl⟩ := hab
      dsimp only at hxy ⊢
      rw [ih hxy, hxy.view]

/-! ## Rejecting a move -/

variable {nl : Netlist} {m : Move} {timing : Option (TimingInputs δ)} {o : Outcome α}

/-- **A rollback undoes an evaluation** up to leftovers. -/
theorem Orderly.twins_of_rollback (he : e.Orderly) {e₁ e₂ : Engine δ α}
    (heval : e.evaluate nl m timing = .ok (e₁, o)) (hrollback : e₁.rollback = .ok e₂) :
    Twins e e₂ := by
  have hpending := (evaluate_eq_ok.1 heval).1
  have hidle := he.idle hpending
  have hdone := evaluated_of_evaluate hidle heval
  obtain ⟨-, rfl⟩ := rollback_eq_ok.1 hrollback
  have hnets :
      (e₁.affected.foldl (fun e n => e.updateNet n NetState.discard) e₁).nets = e.nets := by
    refine Array.ext_getElem? fun i => ?_
    rw [getElem?_foldl_updateNet (f := NetState.discard) fun _ => rfl]
    split
    · -- a listed net: its cost was not changed, and its marks are those of an idle engine again
      cases hs : e.nets[i]? with
      | none =>
        have hnone : e₁.nets[i]? = none := by
          rw [Array.getElem?_eq_none_iff] at hs ⊢
          rwa [hdone.same.nets_size]
        rw [hnone, Option.map_none]
      | some s =>
        obtain ⟨s₁, hs₁, hcost, hignored⟩ := hdone.same.net' hs
        obtain ⟨hproposed, hupdate⟩ := hidle.nets i s hs
        rw [hs₁, Option.map_some, NetState.discard, hcost, hignored, ← hproposed, ← hupdate]
    · -- a net that is not listed was not changed
      rename_i hi
      exact hdone.nets i hi
  have htouched := hidle.connections
  have hsame := hdone.same
  refine ⟨.of_unmarked he hpending ?_ hsame.size ⟨?_, hsame.timings.size, ?_⟩, he, fun hp => ?_⟩
  · rw [hnets, hsame.interior, hsame.factors, hsame.options, hsame.geometry, hpending]
  · rw [ConnectionTable.rollback, hsame.timings.offsets, hsame.timings.committed, htouched]
  · simp [htouched]
  · rw [hpending] at hp
    cases hp

omit [DelayScalar δ α] in
/-- A verification of an engine without a pending move writes leftovers only. -/
theorem Orderly.twins_of_verify (he : e.Orderly) (hpending : e.pending = false)
    {found : Option (Mismatch α)} (h : e.verify nl = .ok (e', found)) : Twins e e' := by
  -- a verification changes proposed geometries only, and none of them is marked
  obtain ⟨hrest, hsize⟩ := frame_of_verify h
  refine ⟨.of_unmarked he hpending ?_ hsize ?_, he, fun hp => ?_⟩
  · rw [hrest]
  · rw [hrest]
    exact ⟨rfl, rfl, fun _ _ => rfl⟩
  · rw [hpending] at hp
    cases hp

/-- **A rejected move is invisible.** Whatever has happened to the engine before, a move that is
applied, evaluated, rolled back and reverted leaves the netlist exactly as it was, and nothing that
can be read of the engine changes: not at once, and not in any later sequence of operations, nor in
what these answer. The same holds of a verification in place of the move, whatever it finds. -/
theorem rejected_move_invisible (he : e.Reachable) (hpending : e.pending = false)
    (hm : m.Fits nl) :
    (∃ placed, nl.apply m = .ok placed ∧ placed.revert m = .ok nl ∧
      ∀ timing e₁ o, e.evaluate placed m timing = .ok (e₁, o) →
        ∃ e₂, e₁.rollback = .ok e₂ ∧ e₂.view = e.view ∧ ∀ ops, e₂.replay ops = e.replay ops) ∧
    ∀ nl' e₂ found, e.verify nl' = .ok (e₂, found) →
      e₂.view = e.view ∧ ∀ ops, e₂.replay ops = e.replay ops := by
  refine ⟨?_, ?_⟩
  · have happly := (Netlist.apply_eq_ok hm).2 rfl
    refine ⟨_, happly, Netlist.revert_apply hm happly, ?_⟩
    intro timing e₁ o heval
    have hdone := he.orderly.evaluated heval
    have hrollback := rollback_eq_ok.2 ⟨hdone.pending, rfl⟩
    have htwins := he.orderly.twins_of_rollback heval hrollback
    exact ⟨_, hrollback, htwins.view, htwins.replay⟩
  · intro nl' e₂ found hverify
    have htwins := he.orderly.twins_of_verify hpending hverify
    exact ⟨htwins.view, htwins.replay⟩

/-- Rejecting the move of the second block of the small engine. -/
theorem rejected_move_invisible_small : ∃ e₂, Sample.evaluated.1.rollback = .ok e₂ ∧
    e₂.geometry.proposed ≠ Sample.engine.geometry.proposed ∧
    ∀ ops, e₂.replay ops = Sample.engine.replay ops := by
  obtain ⟨placed, happly, -, h⟩ := (rejected_move_invisible (m := Sample.move)
    Sample.reachable_engine (by decide +kernel) Sample.fits_move).1
  obtain rfl : Sample.placed = placed := Except.ok.inj (Sample.apply_eq.symm.trans happly)
  obtain ⟨e₂, hrollback, -, hreplay⟩ := h none _ _ Sample.evaluate_eq
  refine ⟨e₂, hrollback, ?_, hreplay⟩
  rw [(rollback_eq_ok.1 hrollback).2]
  decide +kernel

end WireCost.Engine
