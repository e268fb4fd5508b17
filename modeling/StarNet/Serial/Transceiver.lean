import StarNet.Serial.Line
import StarNet.Serial.Receiver

/-!
A serial line as a medium. Receiving consumes the line up to the end of a frame or the first
attempt that yields no byte; a failure drops the frame being put together.
-/
namespace StarNet.Serial

structure Transceiver (T : Type) where
  receiver : Receiver := {}
  incoming : List LineEvent := []
  line : T

def receiveFrom (r : Receiver) : List LineEvent → Reception × Receiver × List LineEvent
  | [] => (.nothing, r, [])
  | .byte b :: rest =>
    match r.feed b with
    | (r, some reception) => (reception, r, rest)
    | (r, none) => receiveFrom r rest
  | .notReady :: rest | .readsNothing :: rest => (.nothing, r, rest)
  | .readFails :: rest | .readyFails :: rest => (.nothing, r.reset, rest)

namespace Transceiver

variable {T : Type}

def receive (t : Transceiver T) : Reception × Transceiver T :=
  let (reception, receiver, incoming) := receiveFrom t.receiver t.incoming
  (reception, { t with receiver, incoming })

variable [Transmitter T]

def canSend (t : Transceiver T) : Bool × Transceiver T :=
  let (ready, line) := Transmitter.ready? t.line
  (ready.getD false, { t with line })

/-- Writes sync byte, frame and checksum and flushes. A payload that fits no packet is dropped
before anything is written. -/
def send (t : Transceiver T) (header : Header) (payload : List UInt8) :
    WriteResult × Transceiver T :=
  match Packet.setPayload { header } payload with
  | .error _ => (.failed, t)
  | .ok packet =>
    match writeParts t.line (parts packet) with
    | (.done, line) =>
      let (flushed, line) := Transmitter.flush line
      (if flushed then .done else .failed, { t with line })
    | (result, line) => (result, { t with line })

/-- Only a stalled write ends a run; a failed one loses the rest of its frame. -/
instance : Medium (Transceiver T) where
  enabled _ := true
  configure t _ _ := t
  canSend := canSend
  transmit t frame :=
    match t.send frame.header frame.payload with
    | (.stalled, _) => .error .writeStalled
    | (_, t) => .ok t
  receive := receive

end Transceiver

end StarNet.Serial
