/-!
Where the blocks of the modules lie: back to back in module order, with the two bytes of their
checksum behind the last one.
-/
namespace StarNet

structure Slot where
  moduleId : UInt8
  address : Nat
  size : Nat
  deriving DecidableEq, Repr

namespace Layout

def base : Nat := 0x20

def maxBlock : Nat := 64

def maxModules : Nat := 16

def checksumSize : Nat := 2

/-- Gives every block that fits a slot at `address`, then behind the block before it. A module
with no block or too large a one gets none, nor does one whose block and checksum would pass the
capacity. Layout stops at a block for which no slot is left. -/
def slotsFrom (capacity address room : Nat) : List (UInt8 × Nat) → List Slot
  | [] => []
  | (id, size) :: blocks =>
    if size = 0 ∨ maxBlock < size ∨ capacity < address + size + checksumSize then
      slotsFrom capacity address room blocks
    else if room = 0 then []
    else ⟨id, address, size⟩ :: slotsFrom capacity (address + size) (room - 1) blocks

def slots (capacity : Nat) (blocks : List (UInt8 × Nat)) : List Slot :=
  slotsFrom capacity base maxModules blocks

def blocksLength (slots : List Slot) : Nat := slots.foldr (·.size + ·) 0

end Layout

end StarNet
