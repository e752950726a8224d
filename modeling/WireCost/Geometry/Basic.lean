import WireCost.BoxCost
import WireCost.EdgeBox.Update
import WireCost.Netlist.Basic

/-! # The geometry of a net

A net is measured by boxes in one of two forms, together with the number of its sinks on each layer.

* **`BoxForm`** — one box over all pins, or one box a layer over the driver and that layer's sinks.
* **`Geometry.scan`** — the geometry of a net from the sites of its pins.
* **`Geometry.shift?`** — the geometry after one pin has moved, where it can be told without a scan.
* **`Geometry.shift`** — the same in place, with what a move leaves behind that cannot be followed.
* **`Geometry.cost`, `Geometry.wirelength`** — what the geometry costs. -/

namespace WireCost

/-! ## Forms and sites -/

/-- How a net is measured. -/
inductive BoxForm where
  /-- One box over the pins of all layers. -/
  | cube
  /-- One box for every layer, over the driver and the sinks on that layer. -/
  | perLayer
deriving DecidableEq, Repr, Inhabited

/-- The name of a form. -/
def BoxForm.label : BoxForm → String
  | .cube => "cube"
  | .perLayer => "per_layer"

/-- The number of boxes of a net on a device with some layers. -/
def BoxForm.boxCount (form : BoxForm) (layers : Nat) : Nat :=
  match form with
  | .cube => 1
  | .perLayer => layers

/-- Where the pins of a net are, clipped to the interior. -/
structure NetSites where
  driver : Site
  sinks : List Site
deriving DecidableEq, Repr, Inhabited

/-- The sites of the pins of a net. -/
def Netlist.sitesOf (nl : Netlist) (interior : Interior) (id : NetId) : Checked NetSites := do
  let driver ← interior.clip (← nl.siteOf (← nl.driverOf id))
  let net ← nl.net id
  let sinks ← net.sinks.mapM fun sink => do interior.clip (← nl.siteOf sink)
  .ok ⟨driver, sinks⟩

/-- The boxes of a net and its sinks on each layer. -/
structure Geometry where
  boxes : List EdgeBox
  sinks : List Int
deriving DecidableEq, Repr, Inhabited

/-- A pin that moves from one interior site to another. -/
structure PinShift where
  old : Site
  new : Site
  /-- Whether the pin drives the net. -/
  drives : Bool
deriving DecidableEq, Repr, Inhabited

namespace Geometry

/-- The geometry of a net that has not been measured yet. -/
def blank (form : BoxForm) (layers : Nat) : Geometry where
  boxes := List.replicate (form.boxCount layers) .blank
  sinks := List.replicate layers 0

/-! ## From scratch -/

/-- One more sink on a layer. -/
def countSink (sinks : List Int) (layer : Int) : Checked (List Int) :=
  change sinks (Word.asNat64 layer) fun n => Word.int32 (n + 1)

/-- One sink less on a layer. -/
def uncountSink (sinks : List Int) (layer : Int) : Checked (List Int) :=
  change sinks (Word.asNat64 layer) fun n => Word.int32 (n - 1)

/-- The box that a sink on a layer belongs to. -/
def boxOf (form : BoxForm) (layer : Int) : Nat :=
  match form with
  | .cube => 0
  | .perLayer => Word.asNat64 layer

/-- A sink joins the geometry. -/
def addSink (form : BoxForm) (g : Geometry) (s : Site) : Checked Geometry := do
  let boxes ← change g.boxes (boxOf form s.layer) (·.include s.x s.y)
  let sinks ← countSink g.sinks s.layer
  .ok ⟨boxes, sinks⟩

/-- The geometry of a driver without sinks: its point in every box. -/
def ofDriver (form : BoxForm) (layers : Nat) (driver : Site) : Geometry where
  boxes := List.replicate (form.boxCount layers) (.point driver.x driver.y)
  sinks := List.replicate layers 0

/-- **The geometry of a net,** found by looking at every pin: every box starts at the driver, and
then each sink joins its box. -/
def scan (form : BoxForm) (layers : Nat) (sites : NetSites) : Checked Geometry :=
  sites.sinks.foldlM (addSink form) (ofDriver form layers sites.driver)

/-! ## One pin at a time -/

/-- The number of sinks on all layers, each count read as an unsigned word. -/
def sinkTotal (g : Geometry) : Checked Nat :=
  g.sinks.foldlM (fun total n => Word.nat64 (total + Word.asNat64 n)) 0

/-- A pin of one box moves. -/
def shiftBox? (boxes : List EdgeBox) (i : Nat) (p : PinShift) :
    Checked (Option (List EdgeBox)) := do
  let box ← entry boxes i
  match ← box.shift? (p.old.x, p.old.y) (p.new.x, p.new.y) with
  | none => .ok none
  | some box => .ok (some (boxes.set i box))

/-- A pin moves under the cube form. The driver of a net without sinks takes its box along. -/
def shiftCube? (g : Geometry) (p : PinShift) : Checked (Option Geometry) := do
  let alone ← if p.drives then (g.sinkTotal).map (· == 0) else .ok false
  if alone then
    .ok (some { g with boxes := g.boxes.set 0 (.point p.new.x p.new.y) })
  else
    match ← shiftBox? g.boxes 0 p with
    | none => .ok none
    | some boxes =>
      if ¬ p.drives ∧ p.old.layer ≠ p.new.layer then
        let sinks ← uncountSink g.sinks p.old.layer
        let sinks ← countSink sinks p.new.layer
        .ok (some ⟨boxes, sinks⟩)
      else .ok (some { g with boxes })

/-- The driver belongs to the box of every layer; on a layer without sinks it takes the box along.
The boxes change one after the other, so those before one that has to be scanned again have changed
already. The flag tells whether none had to be. -/
def shiftDriver (p : PinShift) : List (EdgeBox × Int) → Checked (List EdgeBox × Bool)
  | [] => .ok ([], true)
  | (box, sinks) :: rest => do
    let moved ←
      if sinks = 0 then .ok (some (EdgeBox.point p.new.x p.new.y))
      else box.shift? (p.old.x, p.old.y) (p.new.x, p.new.y)
    match moved with
    | none => .ok (box :: rest.map Prod.fst, false)
    | some box =>
      let (boxes, followed) ← shiftDriver p rest
      .ok (box :: boxes, followed)

/-- The boxes of a driver that has moved in all of them. -/
def shiftDriver? (p : PinShift) (boxes : List (EdgeBox × Int)) :
    Checked (Option (List EdgeBox)) := do
  let (boxes, followed) ← shiftDriver p boxes
  .ok (if followed then some boxes else none)

/-- A pin moves under the per-layer form. A sink that changes its layer leaves one box and joins
another. -/
def shiftPerLayer? (g : Geometry) (p : PinShift) : Checked (Option Geometry) := do
  if p.drives then
    match ← shiftDriver? p (g.boxes.zip g.sinks) with
    | none => .ok none
    | some boxes => .ok (some { g with boxes })
  else if p.old.layer = p.new.layer then
    match ← shiftBox? g.boxes (Word.asNat64 p.old.layer) p with
    | none => .ok none
    | some boxes => .ok (some { g with boxes })
  else
    let oldBox ← entry g.boxes (Word.asNat64 p.old.layer)
    match ← oldBox.exclude? p.old.x p.old.y with
    | none => .ok none
    | some box =>
      let boxes := g.boxes.set (Word.asNat64 p.old.layer) box
      let boxes ← change boxes (Word.asNat64 p.new.layer) (·.include p.new.x p.new.y)
      let sinks ← uncountSink g.sinks p.old.layer
      let sinks ← countSink sinks p.new.layer
      .ok (some ⟨boxes, sinks⟩)

/-- **The geometry after one pin has moved,** or no answer when the net has to be scanned again. -/
def shift? (form : BoxForm) (g : Geometry) (p : PinShift) : Checked (Option Geometry) :=
  match form with
  | .cube => g.shiftCube? p
  | .perLayer => g.shiftPerLayer? p

/-- **Moves one pin in place.** The flag tells whether the geometry could follow. One that has to be
scanned again stays as it was, but for the boxes that a driver has already moved in. -/
def shift (form : BoxForm) (g : Geometry) (p : PinShift) : Checked (Geometry × Bool) := do
  if form = .perLayer ∧ p.drives then
    let (boxes, followed) ← shiftDriver p (g.boxes.zip g.sinks)
    .ok ({ g with boxes }, followed)
  else
    match ← g.shift? form p with
    | none => .ok (g, false)
    | some g => .ok (g, true)

/-! ## Cost -/

variable {α : Type} [CostScalar α]

/-- Sums a measure of the boxes, each with its number of pins: of the one box with all sinks, or of
the boxes of all layers that hold sinks. A net without sinks measures nothing. -/
def measure (form : BoxForm) (g : Geometry) (ofBox : EdgeBox → Nat → Checked α) : Checked α := do
  match form with
  | .cube =>
    let total ← g.sinkTotal
    if total = 0 then .ok zero
    else do
      let box ← entry g.boxes 0
      let pins ← Word.nat64 (total + 1)
      ofBox box pins
  | .perLayer =>
    let terms ← ((g.boxes.zip g.sinks).filter (0 < ·.2)).mapM fun (box, n) =>
      ofBox box (n.toNat + 1)
    .ok (sum terms)

/-- **The cost of a net.** -/
def cost (form : BoxForm) (factors : ChannelFactors α) (g : Geometry) : Checked α :=
  g.measure form (boxCost factors)

/-- The wirelength estimate of a net. -/
def wirelength (form : BoxForm) (g : Geometry) : Checked α := g.measure form boxLength

/-! ## Text -/

/-- The boxes in the long form of mismatch reports. -/
def boxesText (g : Geometry) : String := "[" ++ ", ".intercalate (g.boxes.map (·.toRecord)) ++ "]"

/-- The sink counts in the long form of mismatch reports. -/
def sinksText (g : Geometry) : String := "[" ++ ", ".intercalate (g.sinks.map toString) ++ "]"

end Geometry

end WireCost
