/-!
Who a node is: a node number and the group it shares a radio address with. Both are fixed at
start, either by the defaults or by two bytes a boot loader leaves in memory.
-/
namespace StarNet

/-- A node number usable on the air; 0 and 31 are reserved. -/
structure NodeId where
  number : UInt8
  usable : 1 ≤ number ∧ number ≤ 30
  deriving DecidableEq

namespace NodeId

def ofNumber? (number : UInt8) : Option NodeId :=
  if h : 1 ≤ number ∧ number ≤ 30 then some ⟨number, h⟩ else none

def gateway : NodeId := ⟨1, by decide⟩

instance : Inhabited NodeId := ⟨gateway⟩

theorem number_le (id : NodeId) : id.number.toNat ≤ 30 := id.usable.2

end NodeId

def defaultGroup : UInt8 := 0xD4

structure Identity where
  node : NodeId := .gateway
  group : UInt8 := defaultGroup
  deriving DecidableEq, Inhabited

/-- What the boot loader leaves behind, group first. -/
structure BootOverride where
  group : UInt8
  node : UInt8
  deriving DecidableEq, Repr

def BootOverride.read? (memory : List UInt8) (start : Nat) : Option BootOverride :=
  match memory.drop start with
  | group :: node :: _ => some ⟨group, node⟩
  | _ => none

/-- An override counts only when its group is not zero and its node number is usable. -/
def Identity.resolve (boot : Option BootOverride) (default : Identity) : Identity :=
  match boot with
  | none => default
  | some b =>
    if b.group = 0 then default
    else match NodeId.ofNumber? b.node with
      | some node => ⟨node, b.group⟩
      | none => default

end StarNet
