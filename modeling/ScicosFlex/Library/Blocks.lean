import Mathlib.Logic.Function.Basic

/-!
# Allocated arrays

An array of C together with the number of its elements. An access outside it is
undefined behaviour, here `none`, so that a run without `none` is one whose indices
all lie inside what was allocated.
-/

namespace ScicosFlex.Library.Blocks

universe u
variable {α : Type u}

/-- `allocated` elements, numbered from zero. -/
structure Block (α : Type u) where
  allocated : Nat
  cell : Nat → α

/-- `block[index]`. -/
def Block.read (block : Block α) (index : Nat) : Option α :=
  if index < block.allocated then some (block.cell index) else none

/-- `block[index] = value`. -/
def Block.write (block : Block α) (index : Nat) (value : α) : Option (Block α) :=
  if index < block.allocated then
    some { block with cell := Function.update block.cell index value }
  else none

/-- Inside the array a read succeeds. -/
theorem Block.read_inside (block : Block α) (index : Nat) (inside : index < block.allocated) :
    block.read index = some (block.cell index) := if_pos inside

/-- Inside the array a write changes one element. -/
theorem Block.write_inside (block : Block α) (index : Nat) (value : α)
    (inside : index < block.allocated) :
    block.write index value = some { block with cell := Function.update block.cell index value } :=
  if_pos inside

/-- Outside the array a read is undefined. -/
theorem Block.read_outside (block : Block α) (index : Nat) (outside : block.allocated ≤ index) :
    block.read index = none := if_neg (Nat.not_lt.mpr outside)

end ScicosFlex.Library.Blocks
