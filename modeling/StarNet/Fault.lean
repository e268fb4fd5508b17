/-!
What can go wrong. A `Fault` ends a run: machine-word arithmetic, storage addresses and byte
streams are checked, and a violation leaves no state behind. A `SendError` or a `StoreError`
is an ordinary answer, after which the state is as it was.
-/
namespace StarNet

inductive Fault where
  /-- A retry deadline past the last clock tick. -/
  | clockOverflow
  /-- More transmissions of one packet than a byte can count. -/
  | countOverflow
  /-- An access outside the bytes a storage holds. -/
  | storageRange
  /-- A line that neither takes a byte nor fails. -/
  | writeStalled
  deriving DecidableEq, Repr

inductive SendError where
  | disabled
  | queueFull
  | tooLong
  deriving DecidableEq, Repr

def SendError.message : SendError → String
  | .disabled => "Disabled"
  | .queueFull => "QueueFull"
  | .tooLong => "BufferTooLong"

inductive StoreError where
  | unknownModule (id : UInt8)
  | tooLarge (id : UInt8)
  deriving DecidableEq, Repr

def StoreError.message : StoreError → String
  | .unknownModule id => s!"UnknownModule({id})"
  | .tooLarge id => s!"ConfigTooLarge({id})"

end StarNet
