import StarNet.Node.Poll
import StarNet.Config.Module

/-!
A node is itself a module. Its stored block is one byte, the radio mode.
-/
namespace StarNet.Node

variable {W : Type} [Medium W] [Clock W] [SignalSource W]

def initRadio (mode : RadioMode) : NodeM W Unit := do
  let n ← get
  if n.enabled then
    set { n with world := Medium.configure n.world n.identity mode }
    note .mediumReady

def bringUp (n : Node W) (mode : RadioMode) : Persist (Node W) :=
  match (initRadio mode).run n with
  | .ok (_, n) => .done n
  | .error fault => .fail fault

def storedMode? (block : Option (List UInt8)) : Option RadioMode := do
  RadioMode.ofByte? (← (← block).head?)

/-- Without a valid stored mode the default one is stored and used, even if storing it fails. -/
def configure (n : Node W) (block : Option (List UInt8)) : Persist (Node W) :=
  match storedMode? block with
  | some mode => n.bringUp mode
  | none => .write ModuleId.net [RadioMode.normal.byte] fun _ => n.bringUp .normal

instance : Module (Node W) where
  moduleId _ := ModuleId.net
  blockSize _ := 1
  configure := configure
  receive n _ := n

end StarNet.Node
