import WireCost.Netlist.Basic

/-! # Moves

* **`Relocation`** — one block with its old and its new location.
* **`Move`** — the blocks that one proposed move relocates, each of them once. -/

namespace WireCost

/-- One relocated block. -/
structure Relocation where
  block : BlockId
  /-- The location before the move. -/
  source : Location
  /-- The location after the move. -/
  target : Location
deriving DecidableEq, Repr, Inhabited

/-- The blocks relocated by one proposed move, in the order in which they were listed. -/
structure Move where
  relocations : List Relocation
deriving DecidableEq, Repr, Inhabited

namespace Move

/-- The move of no block. -/
def empty : Move := ⟨[]⟩

/-- Whether a block is relocated. -/
def contains (m : Move) (block : BlockId) : Bool := m.relocations.any (·.block == block)

/-- Lists one more relocation; a block can be relocated only once. -/
def push (m : Move) (r : Relocation) : Checked Move := do
  require (¬ m.contains r.block) (.repeatedBlock r.block.toNat)
  .ok ⟨m.relocations ++ [r]⟩

/-- The number of relocated blocks. -/
def size (m : Move) : Nat := m.relocations.length

/-- Whether no block is relocated. -/
def isEmpty (m : Move) : Bool := m.relocations.isEmpty

end Move

end WireCost
