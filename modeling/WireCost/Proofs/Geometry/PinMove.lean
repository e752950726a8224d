import WireCost.Proofs.Device
import WireCost.Proofs.Geometry.Table
import WireCost.Proofs.Netlist.Built
import WireCost.Proofs.Netlist.Sites

/-! # One pin of a net moves

When the geometry of a net is what a scan finds, and one of its pins moves to another site, the
geometry that is proposed for the net is what a scan would find then, or the move is refused.

* **`Geometry.Measures.shift`** — the same of an exact geometry and the sites of its net.
* **`Net.scan_sitesAt`** — a scan of a net under an assignment of sites to pins.
* **`GeometryTable.Reproposes`** — only the proposed geometry of one net differs.
* **`GeometryTable.pin_move_exact_or_refused`** — a pin of a net in a table of geometries moves. -/

namespace WireCost

/-! ## Geometries -/

namespace Geometry

variable {form : BoxForm} {layers : Nat} {g : Geometry} {b : SiteBag} {p : PinShift}

/-- **A pin moves in place:** it is followed exactly when it takes no edge away, to the geometry of
the new sites. -/
theorem Measures.shift (h : g.Measures form layers b) (hl : layers ≤ Word.size64)
    (hheld : b.Holds p) (hnew : p.new.OnLayers layers) (hfits : b.Fits)
    (room : b.sinks.card + 1 < Word.size32) :
    (∀ g', g.shift form p = .ok (g', true) ↔
      ¬ g.Loses form b p ∧ (b.shift p).Fits ∧ g'.Measures form layers (b.shift p)) ∧
    ((∃ g', g.shift form p = .ok (g', false)) ↔ g.Loses form b p) := by
  obtain ⟨o, hfollows⟩ := h.shift? hl hheld hnew hfits room
  refine ⟨fun g' => ?_, ?_⟩
  · rw [shift_eq_true, hfollows.run_iff, ← hfollows.none_iff]
    constructor
    · rintro ⟨hfit, rfl⟩
      refine ⟨Option.some_ne_none g', ?_, hfollows.measures g' rfl⟩
      exact hfit.resolve_left (Option.some_ne_none g')
    · rintro ⟨hkept, hfit, hexact⟩
      obtain ⟨g₁, rfl⟩ := Option.ne_none_iff_exists'.1 hkept
      have hsame := (hfollows.measures g₁ rfl).unique hexact
      exact ⟨.inr hfit, congrArg some hsame⟩
  · rw [exists_shift_eq_false, hfollows.run_iff, ← hfollows.none_iff]
    exact ⟨And.right, fun hnone => ⟨.inl hnone, hnone⟩⟩

end Geometry

/-! ## Nets -/

namespace Net

variable {i : Interior} {net : Net} {driver p : PinId} {σ : PinId → Site} {s : Site}

/-- A pin of the net is its driver or one of its sinks. -/
theorem role_of_mem (hp : p ∈ driver :: net.sinks) :
    if p == driver then p = driver else p ∈ net.sinks := by
  by_cases hdriver : p = driver
  · rw [if_pos (beq_iff_eq.2 hdriver)]
    exact hdriver
  · rw [if_neg fun h => hdriver (beq_iff_eq.1 h)]
    exact (List.mem_cons.1 hp).resolve_left hdriver

/-- **Scanning a net at assigned sites** yields its exact geometry, as long as the sinks of each
layer can be counted. -/
theorem scan_sitesAt {form : BoxForm} {g : Geometry} (hl : i.layers ≤ Word.size64)
    (hroom : net.sinks.length + 1 < Word.size32)
    (hσ : ∀ q ∈ driver :: net.sinks, i.HasSite (σ q)) :
    Geometry.scan form i.layers (net.sitesAt driver σ) = .ok g ↔
      (net.bagAt driver σ).Fits ∧ g.Measures form i.layers (net.bagAt driver σ) := by
  refine Geometry.scan_eq_ok hl (fun s hs => ?_) (by simpa [sitesAt] using hroom)
  obtain ⟨q, hq, rfl⟩ := List.mem_map.1 hs
  exact (hσ q (List.mem_cons_of_mem driver hq)).onLayers

/-- A net at assigned sites, of which one has changed. -/
theorem hasSite_update (hσ : ∀ q ∈ driver :: net.sinks, i.HasSite (σ q)) (hs : i.HasSite s) :
    ∀ q ∈ driver :: net.sinks, i.HasSite (Function.update σ p s q) := by
  intro q hq
  by_cases hqp : q = p
  · rw [hqp, Function.update_self]
    exact hs
  · rw [Function.update_of_ne hqp]
    exact hσ q hq

end Net

/-! ## Tables -/

namespace GeometryTable

variable {t t' : GeometryTable} {n : NetId}

/-- Only the proposed geometry of one net differs. -/
structure Reproposes (t t' : GeometryTable) (n : NetId) : Prop where
  form : t'.form = t.form
  layers : t'.layers = t.layers
  committed : t'.committed = t.committed
  others : ∀ k, k ≠ n → t'.proposedOf k = t.proposedOf k

theorem reproposes_withProposed (t : GeometryTable) (n : NetId) (g : Geometry) :
    t.Reproposes (t.withProposed n g) n where
  form := rfl
  layers := rfl
  committed := rfl
  others := by
    intro k hk
    have hne : n.toNat ≠ k.toNat := fun h => hk (NetId.toNat_inj.1 h).symm
    rw [proposedOf, proposedOf, entry, entry, withProposed, Array.getElem?_setIfInBounds_ne hne]

/-- What is proposed for a net can be read back. -/
theorem proposedOf_withProposed (hn : n.toNat < t.proposed.size) (g : Geometry) :
    (t.withProposed n g).proposedOf n = .ok g := by
  rw [proposedOf, entry_eq_ok, withProposed, Array.getElem?_setIfInBounds_self_of_lt hn]

/-- **One pin of a net moves.** Let the pins of a net be assigned sites inside the interior, and let
the base of the move be what a scan of these sites finds: the committed geometry of the net if the
move is its first one, else the proposed one. The move of a pin to another site is refused exactly
when the pin takes an edge away, and otherwise it is followed whenever the new sites can be scanned.
What is proposed then is what that scan finds. In either case the committed geometries and the
proposals of all other nets stay as they are. -/
theorem pin_move_exact_or_refused {nl : Netlist} {net : Net} {driver p : PinId} {d : Device}
    {i : Interior} {σ : PinId → Site} {s : Site} {fresh : Bool} {g : Geometry} (hbuilt : nl.Built)
    (hnet : nl.nets[n.toNat]? = some net) (hdriver : net.driver = some driver)
    (hdevice : Interior.ofDevice d = .ok (.ok i)) (hlayers : t.layers = i.layers)
    (hn : n.toNat < t.proposed.size) (hσ : ∀ q ∈ driver :: net.sinks, i.HasSite (σ q))
    (hp : p ∈ driver :: net.sinks) (hs : i.HasSite s)
    (hbase : (t.side fresh)[n.toNat]? = some g)
    (hg : Geometry.scan t.form t.layers (net.sitesAt driver σ) = .ok g) :
    ((∃ t', t.shift n fresh ⟨σ p, s, p == driver⟩ = .ok (t', true)) ↔
      ¬ g.Loses t.form (net.bagAt driver σ) ⟨σ p, s, p == driver⟩ ∧
        ∃ g', Geometry.scan t.form t.layers (net.sitesAt driver (Function.update σ p s)) =
          .ok g') ∧
    ((∃ t', t.shift n fresh ⟨σ p, s, p == driver⟩ = .ok (t', false)) ↔
      g.Loses t.form (net.bagAt driver σ) ⟨σ p, s, p == driver⟩) ∧
    (∀ t', t.shift n fresh ⟨σ p, s, p == driver⟩ = .ok (t', true) →
      ∃ g', t'.proposedOf n = .ok g' ∧
        Geometry.scan t.form t.layers (net.sitesAt driver (Function.update σ p s)) = .ok g') ∧
    (∀ t' followed, t.shift n fresh ⟨σ p, s, p == driver⟩ = .ok (t', followed) →
      t.Reproposes t' n) := by
  have hconsistent := hbuilt.consistent
  have hroom := hconsistent.length_sinks_lt hnet (by rw [hdriver]; rfl)
  have hl := Interior.layers_le_of_ofDevice hdevice
  have hrole := Net.role_of_mem hp
  have hscan : ∀ g', Geometry.scan t.form t.layers (net.sitesAt driver (Function.update σ p s)) =
      .ok g' ↔ ((net.bagAt driver σ).shift ⟨σ p, s, p == driver⟩).Fits ∧
        g'.Measures t.form t.layers ((net.bagAt driver σ).shift ⟨σ p, s, p == driver⟩) := by
    intro g'
    have hnodup := hconsistent.sinks_nodup hnet
    have hapart := hconsistent.driver_notMem_sinks hnet hdriver
    rw [hlayers, Net.scan_sitesAt hl hroom (Net.hasSite_update hσ hs),
      Net.bagAt_update hnodup hapart hrole]
  rw [hlayers] at hg
  obtain ⟨hfits, hexact⟩ := (Net.scan_sitesAt hl hroom hσ).1 hg
  obtain ⟨hfollowed, hrefused⟩ := hexact.shift hl (Net.bagAt_holds (s := s) hrole) hs.onLayers hfits
    (by rwa [Net.card_bagAt])
  rw [← hlayers] at hfollowed
  -- the base is the only geometry that the move starts from
  have hrun : ∀ t' followed, t.shift n fresh ⟨σ p, s, p == driver⟩ = .ok (t', followed) ↔
      ∃ g', g.shift t.form ⟨σ p, s, p == driver⟩ = .ok (g', followed) ∧
        t.withProposed n g' = t' := by
    intro t' followed
    rw [shift_eq_ok]
    constructor
    · rintro ⟨base, hbase', h⟩
      obtain rfl := Option.some.inj (hbase.symm.trans hbase')
      exact h
    · exact fun h => ⟨g, hbase, h⟩
  refine ⟨?_, ?_, ?_, ?_⟩
  · simp only [hrun, hfollowed, hscan]
    constructor
    · rintro ⟨_, g', ⟨hkept, hfit, hnew⟩, -⟩
      exact ⟨hkept, g', hfit, hnew⟩
    · rintro ⟨hkept, g', hfit, hnew⟩
      exact ⟨_, g', ⟨hkept, hfit, hnew⟩, rfl⟩
  · rw [← hrefused]
    simp only [hrun]
    constructor
    · rintro ⟨_, g', hg', -⟩
      exact ⟨g', hg'⟩
    · rintro ⟨g', hg'⟩
      exact ⟨_, g', hg', rfl⟩
  · intro t' h
    obtain ⟨g', hg', rfl⟩ := (hrun t' true).1 h
    exact ⟨g', proposedOf_withProposed hn g', (hscan g').2 ((hfollowed g').1 hg').2⟩
  · intro t' followed h
    obtain ⟨g', -, rfl⟩ := (hrun t' followed).1 h
    exact reproposes_withProposed t n g'

end GeometryTable

/-! ## A small net -/

namespace Sample

/-- A device with two columns and two rows inside the perimeter, and a second layer. -/
def twoLayers : Device := ⟨4, 4, 2, [1, 1, 1, 1], [1, 1, 1, 1]⟩

/-- The driver of the small net sits in a corner of the first layer, and its sink in some column of
the same row. -/
def inRow (x : Int) (p : PinId) : Site := if p = ⟨0⟩ then ⟨1, 1, 0⟩ else ⟨x, 1, 0⟩

/-- The geometry of the net with the sink beside the driver. -/
def together : Geometry :=
  ⟨[⟨⟨⟨1, 2⟩, ⟨1, 2⟩⟩, ⟨⟨1, 2⟩, ⟨1, 2⟩⟩⟩, .point 1 1], [1, 0]⟩

/-- The geometry of the net with the sink in the other column. -/
def apart : Geometry :=
  ⟨[⟨⟨⟨1, 1⟩, ⟨2, 1⟩⟩, ⟨⟨1, 2⟩, ⟨1, 2⟩⟩⟩, .point 1 1], [1, 0]⟩

/-- A table with one net, measured layer by layer. -/
def tableOf (g : Geometry) : GeometryTable := ⟨.perLayer, 2, #[g], #[g]⟩

end Sample

/-- The sink of the small net goes to the other layer. Beside the driver it is followed, but not
from the other column, where it is alone. -/
theorem GeometryTable.pin_move_exact_or_refused_small :
    (∃ t', (Sample.tableOf Sample.together).shift ⟨0⟩ true ⟨⟨1, 1, 0⟩, ⟨2, 2, 1⟩, false⟩ =
      .ok (t', true)) ∧
    (∃ t', (Sample.tableOf Sample.apart).shift ⟨0⟩ true ⟨⟨2, 1, 0⟩, ⟨2, 2, 1⟩, false⟩ =
      .ok (t', false)) := by
  have hline : Interior.lastLine 4 = .ok 2 := Interior.lastLine_eq_ok.2 (by decide)
  have hdevice : Interior.ofDevice Sample.twoLayers = .ok (.ok ⟨2, 2, 2⟩) :=
    Interior.ofDevice_eq_ok.2 ⟨by decide, by decide, by decide, hline, hline, by decide⟩
  have hnet : Sample.netlist.nets[(⟨0⟩ : NetId).toNat]? =
      some ⟨⟨0⟩, "n", some ⟨0⟩, [⟨1⟩], false⟩ := by
    decide +kernel
  have hsites : ∀ x : Int, 1 ≤ x ∧ x ≤ 2 → ∀ q ∈ [(⟨0⟩ : PinId), ⟨1⟩],
      Interior.HasSite ⟨2, 2, 2⟩ (Sample.inRow x q) := by
    intro x hx q _
    unfold Sample.inRow
    split
    · exact ⟨by decide, by decide, by decide⟩
    · exact ⟨hx, (by decide : (1 : Int) ≤ 1 ∧ (1 : Int) ≤ 2),
        (by decide : (0 : Int) ≤ 0 ∧ (0 : Int) < 2)⟩
  have hnew : Interior.HasSite ⟨2, 2, 2⟩ ⟨2, 2, 1⟩ := ⟨by decide, by decide, by decide⟩
  constructor
  · have hbase : ((Sample.tableOf Sample.together).side true)[(⟨0⟩ : NetId).toNat]? =
        some Sample.together := rfl
    refine (pin_move_exact_or_refused (p := ⟨1⟩) (σ := Sample.inRow 1) Sample.built_netlist hnet rfl
      hdevice rfl (by decide) (hsites 1 (by decide)) (by decide) hnew hbase (by rfl)).1.2
      ⟨?_, _, Sample.eq_ok_result (by decide +kernel)⟩
    rintro ⟨box, hbox, halone⟩
    cases hbox
    exact absurd halone (by decide)
  · have hbase : ((Sample.tableOf Sample.apart).side true)[(⟨0⟩ : NetId).toNat]? =
        some Sample.apart := rfl
    refine (pin_move_exact_or_refused (p := ⟨1⟩) (σ := Sample.inRow 2) Sample.built_netlist hnet rfl
      hdevice rfl (by decide) (hsites 2 (by decide)) (by decide) hnew hbase (by rfl)).2.1.2 ?_
    exact ⟨_, rfl, .inl (.inr ⟨rfl, rfl⟩)⟩

end WireCost
