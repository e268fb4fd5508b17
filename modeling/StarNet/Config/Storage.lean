import StarNet.Fault

/-!
Byte-addressed storage that keeps its contents when the power goes.
-/
namespace StarNet

class Storage (S : Type) where
  /-- How many bytes the storage says it holds. -/
  capacity : S → Nat
  read : S → (address length : Nat) → Except Fault (List UInt8 × S)
  write : S → (address : Nat) → List UInt8 → Except Fault S

structure Memory where
  bytes : List UInt8
  deriving DecidableEq, Repr

namespace Memory

def erased (capacity : Nat) : Memory := ⟨List.replicate capacity 0xFF⟩

def read (m : Memory) (address length : Nat) : Except Fault (List UInt8) :=
  if address + length ≤ m.bytes.length then .ok ((m.bytes.drop address).take length)
  else .error .storageRange

def write (m : Memory) (address : Nat) (data : List UInt8) : Except Fault Memory :=
  if address + data.length ≤ m.bytes.length then
    .ok ⟨m.bytes.take address ++ data ++ m.bytes.drop (address + data.length)⟩
  else .error .storageRange

instance : Storage Memory where
  capacity m := m.bytes.length
  read m address length := do return (← m.read address length, m)
  write m address data := m.write address data

end Memory

end StarNet
