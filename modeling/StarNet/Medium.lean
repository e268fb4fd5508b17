import StarNet.Fault
import StarNet.RadioMode
import StarNet.Frame.Packet

/-!
What a node needs of its surroundings: a medium that carries frames, a clock and a source of
signal readings. All three are read and driven through one state, so a medium may also be the
signal source, and a clock may move with every reading.
-/
namespace StarNet

inductive Reception where
  | nothing
  | frame (packet : Packet)
  | badChecksum
  deriving DecidableEq

def Reception.into (r : Reception) (buffer : Packet) : Packet :=
  match r with
  | .frame packet => packet
  | _ => buffer

/-- What a transmission is for. It is not sent along. -/
inductive Purpose where
  | data
  | ack
  | trace
  deriving DecidableEq, Repr

structure Transmission where
  purpose : Purpose
  header : Header
  payload : List UInt8
  deriving DecidableEq

class Medium (M : Type) where
  /-- False for a medium that stands in for missing hardware. -/
  enabled : M → Bool
  configure : M → Identity → RadioMode → M
  canSend : M → Bool × M
  /-- Starts a transmission; called only right after `canSend` said so. -/
  transmit : M → Transmission → Except Fault M
  receive : M → Reception × M
  /-- Watches the trace notes being made, logged or not; most media do not care. -/
  noted : M → UInt8 → M := fun m _ => m

/-- One tick is a microsecond. -/
abbrev Ticks := UInt64

class Clock (C : Type) where
  now : C → Ticks × C
  pause : C → C

class SignalSource (S : Type) where
  /-- The signal quality of the frame just received. -/
  sample : S → UInt8 × S

inductive Absent where
  | absent
  deriving DecidableEq, Repr

instance : Medium Absent where
  enabled _ := false
  configure m _ _ := m
  canSend m := (false, m)
  transmit m _ := .ok m
  receive m := (.nothing, m)

instance : SignalSource Absent where
  sample m := (0, m)

end StarNet
