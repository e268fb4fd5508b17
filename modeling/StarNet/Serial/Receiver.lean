import StarNet.Medium
import StarNet.Frame.Checksum

/-!
Frames on a serial line: a sync byte, header, length, payload and the checksum of these three,
low byte first. The receiver takes one byte at a time and hunts for the next sync byte after
every frame, good or bad, and after a length that no payload has.
-/
namespace StarNet.Serial

def sync : UInt8 := 0xA5

def parts (p : Packet) : List (List UInt8) :=
  [[sync], p.frame, (checksum p.frame).toBytes]

def encode (p : Packet) : List UInt8 := (parts p).flatten

inductive Stage where
  | sync
  | header
  | length
  | data
  | checksumLow
  | checksumHigh
  deriving DecidableEq, Repr

structure Receiver where
  stage : Stage := .sync
  packet : Packet := {}
  fill : Nat := 0
  checksumLow : UInt8 := 0
  deriving DecidableEq, Inhabited

namespace Receiver

def reset (r : Receiver) : Receiver := { r with stage := .sync }

def feedSync (r : Receiver) (b : UInt8) : Receiver :=
  if b = sync then { r with stage := .header } else r

def feedHeader (r : Receiver) (b : UInt8) : Receiver :=
  { r with stage := .length, packet := { r.packet with header := ⟨b⟩ } }

def feedLength (r : Receiver) (b : UInt8) : Receiver :=
  match r.packet.setLength b with
  | .error _ => r.reset
  | .ok packet =>
    { r with stage := if b = 0 then .checksumLow else .data, packet, fill := 0 }

def feedData (r : Receiver) (b : UInt8) : Receiver :=
  { r with
    stage := if r.packet.length.toNat ≤ r.fill + 1 then .checksumLow else .data
    packet := { r.packet with buffer := r.packet.buffer.set r.fill b }
    fill := r.fill + 1 }

def feedChecksumLow (r : Receiver) (b : UInt8) : Receiver :=
  { r with stage := .checksumHigh, checksumLow := b }

def verdict (r : Receiver) (b : UInt8) : Reception :=
  if checksum r.packet.frame = .ofBytes r.checksumLow b then .frame r.packet else .badChecksum

def feed (r : Receiver) (b : UInt8) : Receiver × Option Reception :=
  match r.stage with
  | .sync => (r.feedSync b, none)
  | .header => (r.feedHeader b, none)
  | .length => (r.feedLength b, none)
  | .data => (r.feedData b, none)
  | .checksumLow => (r.feedChecksumLow b, none)
  | .checksumHigh => (r.reset, some (r.verdict b))

end Receiver

end StarNet.Serial
