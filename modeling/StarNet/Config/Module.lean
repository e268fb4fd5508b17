import StarNet.Fault

/-!
The peripheral modules of a node. Each owns a block of stored bytes and handles the frames that
carry its number.
-/
namespace StarNet

/-- What a module does on being configured: some writes to the store, each of which it sees
answered, and then its new state. -/
inductive Persist (α : Type) where
  | done (a : α)
  | fail (fault : Fault)
  | write (id : UInt8) (data : List UInt8) (next : Except StoreError Unit → Persist α)

def Persist.map {α β : Type} (f : α → β) : Persist α → Persist β
  | .done a => .done (f a)
  | .fail fault => .fail fault
  | .write id data next => .write id data fun answer => map f (next answer)

class Module (α : Type) where
  moduleId : α → UInt8
  /-- Bytes of the stored block, zero for none. -/
  blockSize : α → Nat
  /-- Takes the stored block over, or the module's own defaults if there is no valid one. -/
  configure : α → Option (List UInt8) → Persist α
  /-- Handles a payload whose leading module number is already gone. -/
  receive : α → List UInt8 → α

instance {α β : Type} [Module α] [Module β] : Module (α ⊕ β) where
  moduleId := Sum.elim Module.moduleId Module.moduleId
  blockSize := Sum.elim Module.blockSize Module.blockSize
  configure m block :=
    match m with
    | .inl a => (Module.configure a block).map .inl
    | .inr b => (Module.configure b block).map .inr
  receive m data := m.map (Module.receive · data) (Module.receive · data)

/-- Hands a payload to the first module with the number it starts with. An empty payload is for
nobody. -/
def dispatch {α : Type} [Module α] (modules : List α) (payload : List UInt8) :
    Except StoreError (List α) :=
  match payload with
  | [] => .ok modules
  | id :: data =>
    if modules.any (Module.moduleId · == id) then
      .ok (modules.modify (modules.findIdx (Module.moduleId · == id)) (Module.receive · data))
    else .error (.unknownModule id)

end StarNet
