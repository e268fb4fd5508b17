import StarNet.Frame.Checksum
import StarNet.Config.Storage
import StarNet.Config.Layout
import StarNet.Config.Module

/-!
The store of module blocks. A checksum over all blocks lies behind them; a block is read only
while it holds. Writing a block renews the checksum.
-/
namespace StarNet

structure ConfigStore (S : Type) where
  storage : S
  slots : List Slot := []
  deriving DecidableEq

abbrev StoreM (S : Type) := StateT (ConfigStore S) (Except Fault)

namespace ConfigStore

variable {S : Type} [Storage S]

def blocksEnd {S : Type} (s : ConfigStore S) : Nat := Layout.base + Layout.blocksLength s.slots

def slot? {S : Type} (s : ConfigStore S) (id : UInt8) : Option Slot :=
  s.slots.find? (·.moduleId == id)

def fits (s : ConfigStore S) : Bool :=
  s.blocksEnd + Layout.checksumSize ≤ Storage.capacity s.storage

def readBytes (address length : Nat) : StoreM S (List UInt8) := do
  let s ← get
  let (bytes, storage) ← Storage.read s.storage address length
  set { s with storage }
  return bytes

def writeBytes (address : Nat) (data : List UInt8) : StoreM S Unit := do
  let s ← get
  let storage ← Storage.write s.storage address data
  set { s with storage }

def chunkSize : Nat := 16

def digest (address stop : Nat) (c : Checksum) : StoreM S Checksum := do
  if address < stop then
    let bytes ← readBytes address (min (stop - address) chunkSize)
    digest (address + min (stop - address) chunkSize) stop (c.addBytes bytes)
  else return c
termination_by stop - address
decreasing_by simp only [chunkSize]; omega

/-- Blocks and stored checksum together have checksum zero exactly if they are intact. -/
def intact : StoreM S Bool := do
  let s ← get
  if s.fits then
    return (← digest Layout.base (s.blocksEnd + Layout.checksumSize) .start) == 0
  else return false

def renewChecksum : StoreM S Unit := do
  let s ← get
  if s.fits then
    writeBytes s.blocksEnd (← digest Layout.base s.blocksEnd .start).toBytes

def write (id : UInt8) (data : List UInt8) : StoreM S (Except StoreError Unit) := do
  match (← get).slot? id with
  | none => return .error (.unknownModule id)
  | some slot =>
    if slot.size < data.length then return .error (.tooLarge id)
    else
      writeBytes slot.address data
      renewChecksum
      return .ok ()

/-- Copies a module's block to the front of `buffer`. It fails, with the buffer as it was, if
the module has no block, the buffer is too short or the blocks are not intact. -/
def read (id : UInt8) (buffer : List UInt8) : StoreM S (Bool × List UInt8) := do
  match (← get).slot? id with
  | none => return (false, buffer)
  | some slot =>
    if buffer.length < slot.size then return (false, buffer)
    else if ← intact then
      return (true, (← readBytes slot.address slot.size) ++ buffer.drop slot.size)
    else return (false, buffer)

def persist {α : Type} : Persist α → StoreM S α
  | .done a => return a
  | .fail fault => throw fault
  | .write id data next => do persist (next (← write id data))

def configure {α : Type} [Module α] (valid : Bool) (module : α) : StoreM S α := do
  match (← get).slot? (Module.moduleId module) with
  | some slot =>
    if valid then persist (Module.configure module (some (← readBytes slot.address slot.size)))
    else persist (Module.configure module none)
  | none => persist (Module.configure module none)

/-- Lays out the blocks of the modules and hands each module its own, or none if the stored
blocks are not intact under this layout. Answers whether they are. -/
def init {α : Type} [Module α] (modules : List α) : StoreM S (Bool × List α) := do
  modify fun s =>
    { s with
      slots := Layout.slots (Storage.capacity s.storage)
        (modules.map fun m => (Module.moduleId m, Module.blockSize m)) }
  let valid ← intact
  return (valid, ← modules.mapM (configure valid))

end ConfigStore

end StarNet
