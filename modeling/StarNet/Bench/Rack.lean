import StarNet.Config.Store
import StarNet.Bench.Run

/-!
Modules on the bench around one configuration store: probes that write by script and log what
reaches them, and nodes.
-/
namespace StarNet.Bench

inductive ProbeEntry where
  | configured (block : Option (List UInt8)) (answers : List (Except StoreError Unit))
  | received (data : List UInt8)

/-- A module that makes one list of writes without a stored block and another one with it. -/
structure Probe where
  id : UInt8
  size : Nat
  onNone : List (UInt8 × List UInt8) := []
  onSome : List (UInt8 × List UInt8) := []
  log : List ProbeEntry := []

namespace Probe

def carryOut (p : Probe) (block : Option (List UInt8)) :
    List (UInt8 × List UInt8) → List (Except StoreError Unit) → Persist Probe
  | [], answers => .done { p with log := p.log ++ [.configured block answers] }
  | (id, data) :: writes, answers =>
    .write id data fun answer => carryOut p block writes (answers ++ [answer])

instance : Module Probe where
  moduleId p := p.id
  blockSize p := p.size
  configure p block := p.carryOut block (if block.isSome then p.onSome else p.onNone) []
  receive p data := { p with log := p.log ++ [.received data] }

end Probe

abbrev Device := Probe ⊕ BenchNode

def Device.clearLog : Device → Device
  | .inl p => .inl { p with log := [] }
  | .inr n => .inr { n with world := n.world.clearLog }

/-- Storage in memory that may claim another size than it has. -/
structure BenchStorage where
  memory : Memory
  claim : Option Nat := none

instance : Storage BenchStorage where
  capacity s := s.claim.getD (Storage.capacity s.memory)
  read s address length := do return (← s.memory.read address length, s)
  write s address data := do return { s with memory := ← s.memory.write address data }

structure Rack where
  store : ConfigStore BenchStorage
  devices : List Device

namespace Rack

def start (capacity : Nat) (devices : List Device) : Rack :=
  ⟨{ storage := { memory := .erased capacity } }, devices⟩

def clearLogs (r : Rack) : Rack := { r with devices := r.devices.map Device.clearLog }

def pick (r : Rack) (order : List Nat) : List Device := order.filterMap (r.devices[·]?)

def putBack (r : Rack) (order : List Nat) (devices : List Device) : Rack :=
  { r with devices := (order.zip devices).foldl (fun ds (i, d) => ds.set i d) r.devices }

def everyone (r : Rack) : List Nat := List.range r.devices.length

def init (r : Rack) (order : List Nat) : Except Fault (Bool × Rack) := do
  let ((valid, devices), store) ← (ConfigStore.init (r.pick order)).run r.store
  return (valid, ({ r with store } : Rack).putBack order devices)

def dispatch (r : Rack) (order : List Nat) (payload : List UInt8) : Except StoreError Rack := do
  return r.putBack order (← StarNet.dispatch (r.pick order) payload)

def setClaim (r : Rack) (claim : Option Nat) : Rack :=
  { r with store := { r.store with storage := { r.store.storage with claim } } }

def reboot (r : Rack) : Rack :=
  { r with store := { storage := { memory := r.store.storage.memory } } }

end Rack

end StarNet.Bench
