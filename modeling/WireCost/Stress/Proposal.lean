import WireCost.Device
import WireCost.Netlist.Build
import WireCost.Stress.Dice

/-! # Random moves

* **`Proposer`** — proposes moves of one block within a range, and knows which block sits where.
* **`Proposer.propose`** — a random move; a block that sits at the target changes places with the
  one that moves there.
* **`Proposer.accept`** — keeps track of the moves that are made. -/

namespace WireCost

/-- What random moves are proposed from. -/
structure Proposer where
  /-- The largest displacement on each axis. -/
  range : Int
  /-- The block at each occupied location. -/
  occupants : Std.HashMap Location BlockId

namespace Proposer

/-- A proposer for the current placement. The range is cut down to a signed word. -/
def ofNetlist (nl : Netlist) (range : UInt32) : Proposer where
  range := Word.cut32 range.toNat
  occupants := nl.blocks.toList.foldl (fun taken b => taken.insert b.location b.id) ∅

variable {σ : Type} [Dice σ]

/-- A random line of a side with `size` lines that is at most `range` lines away from `v`. -/
def drawLine (range : Int) (size : UInt64) (v : Int32) : Random σ Int32 := do
  let low ← Word.int32 (v.toInt - range)
  let high ← Word.int32 (v.toInt + range)
  let last ← Word.int32 (Word.cut32 size.toNat - 1)
  let line ← draw (max low 0) (min high last)
  pure (.ofInt line)

/-- A random location within range of another one, on any layer. -/
def drawTarget (p : Proposer) (d : Device) (source : Location) : Random σ Location := do
  let x ← drawLine p.range d.width source.x
  let y ← drawLine p.range d.height source.y
  let layer ← draw 0 (Word.cut32 d.layers.toNat - 1)
  pure ⟨x, y, 0, .ofInt layer⟩

/-- The move of a block to a target, whose occupant, if any, takes the place of the block. -/
def moveTo (p : Proposer) (block : BlockId) (source target : Location) : Checked Move := do
  let m ← Move.empty.push ⟨block, source, target⟩
  match p.occupants[target]? with
  | some occupant => m.push ⟨occupant, target, source⟩
  | none => .ok m

/-- **A random move of one block.** The move is empty if the target is where the block sits. -/
def propose (p : Proposer) (nl : Netlist) (d : Device) : Random σ Move := do
  let block := BlockId.ofNat (← draw 0 ((nl.blocks.size % Word.size32 : Nat) - 1)).toNat
  let source := (← nl.block block).location
  let target ← p.drawTarget d source
  if target = source then pure .empty else p.moveTo block source target

/-- **The proposer after a move is made:** first all sources become free, then all targets are
taken. -/
def accept (p : Proposer) (m : Move) : Proposer :=
  let free (taken : Std.HashMap Location BlockId) (r : Relocation) :=
    if taken[r.source]? = some r.block then taken.erase r.source else taken
  let occupy (taken : Std.HashMap Location BlockId) (r : Relocation) :=
    taken.insert r.target r.block
  { p with occupants := m.relocations.foldl occupy (m.relocations.foldl free p.occupants) }

end Proposer

end WireCost
