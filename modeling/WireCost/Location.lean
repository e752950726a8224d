import WireCost.Fault

/-! # Locations on the device

* **`Location`** — where a block sits: column, row, slot within the tile and layer.
* **`Site`** — where a pin is: column, row and layer. Sites are computed, so they hold plain
  integers; what a block file holds are words of 32 bits.
* **`Location.siteAt`** — the site of a pin at an offset from its block. -/

namespace WireCost

/-- The location of a placed block. -/
structure Location where
  x : Int32
  y : Int32
  /-- The slot within the tile. -/
  subTile : Int32
  layer : Int32
deriving DecidableEq, Repr, Hashable, Inhabited

/-- The location of a pin. -/
structure Site where
  x : Int
  y : Int
  layer : Int
deriving DecidableEq, Repr, Inhabited

/-- The place of a pin relative to its block. -/
structure Offset where
  dx : Int32
  dy : Int32
deriving DecidableEq, Repr, Inhabited

/-- No offset: the pin sits where its block sits. -/
def Offset.zero : Offset := ⟨0, 0⟩

/-- The site of a pin at `offset` from a block at `l`; its coordinates have to be words. -/
def Location.siteAt (l : Location) (offset : Offset) : Checked Site := do
  let x ← Word.int32 (l.x.toInt + offset.dx.toInt)
  let y ← Word.int32 (l.y.toInt + offset.dy.toInt)
  .ok ⟨x, y, l.layer.toInt⟩

end WireCost
