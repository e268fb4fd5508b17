import StarNet.Medium
import StarNet.Radio.Address
import StarNet.Radio.Register

/-!
The radio as a medium. It listens whenever it does not send. Frames pass through one buffer
that the radio reads and writes by itself, as the packet lies in memory; the end of a transfer
shows in the disabled event, an incoming frame already in the address event.
-/
namespace StarNet

inductive Radio.Phase where
  /-- Not configured yet. -/
  | off
  | receiving
  | sending
  deriving DecidableEq, Repr

structure Radio where
  registers : Radio.Registers := {}
  buffer : Packet := {}
  phase : Radio.Phase := .off
  channel : UInt8 := 0

namespace Radio

def bufferAddress : UInt32 := 0x20000000

def write (r : Radio) (writes : List (Register × UInt32)) : Radio :=
  { r with registers := r.registers.writeAll writes }

def bitRate : RadioMode → UInt32
  | .normal => 1
  | .low => 1
  | .slow => 0

def sendPower : RadioMode → UInt32
  | .normal => 0
  | .low => 0xEC
  | .slow => 4

def field (low : Nat) (value : Nat) : UInt32 := UInt32.ofNat (value <<< low)

/-- An eight-bit length behind one byte of header. -/
def packetLayout : UInt32 := field 8 1 ||| field 0 8

/-- High bit first, five address bytes of which the base is all but one, no whitening. -/
def packetLimits : UInt32 :=
  field 24 1 ||| field 16 (Address.size - 1) ||| field 0 maxData

/-- Start when ready, disable at the end, and sample the signal from address to disable. -/
def shortcuts : UInt32 := field 0 1 ||| field 1 1 ||| field 4 1 ||| field 8 1

def setup (address : Address) (mode : RadioMode) : List (Register × UInt32) :=
  [(.powerSwitch, 0), (.powerSwitch, 1),
    (.bitRate, bitRate mode), (.power, sendPower mode),
    (.frequency, address.channel.toUInt32),
    (.packetLayout, packetLayout), (.packetLimits, packetLimits),
    (.checksumStart, 0xFFFF), (.checksumPolynomial, 0x11021), (.checksumSize, 2),
    (.base, address.baseRegister), (.group, address.groupRegister),
    (.sendAddress, 0), (.receiveAddresses, 1),
    (.interruptClear, 0xFFFFFFFF), (.shortcuts, shortcuts)]

def listen (r : Radio) : Radio :=
  { r.write [(.packetPointer, bufferAddress), (.eventAddress, 0), (.eventEnd, 0),
      (.eventDisabled, 0), (.taskReceive, 1)] with phase := .receiving }

/-- Stops the radio, which is taken to happen at once. -/
def disable (r : Radio) : Radio := r.write [(.taskDisable, 1), (.eventDisabled, 0)]

def configure (r : Radio) (identity : Identity) (mode : RadioMode) : Radio :=
  let r := if r.phase = .off then r else r.disable
  let address := Address.ofGroup identity.group
  { r.write (setup address mode) with channel := address.channel }.listen

/-- A receiver that has matched an address is taking a frame in. -/
def canSend (r : Radio) : Bool :=
  r.phase = .receiving && r.registers.value .eventAddress == 0

/-- Abandons listening. A payload that fits no packet is dropped and the radio listens again. -/
def send (r : Radio) (header : Header) (payload : List UInt8) : Radio :=
  let r := r.disable
  match ({ r.buffer with header } : Packet).setPayload payload with
  | .error _ => { r with buffer := { r.buffer with header } }.listen
  | .ok buffer =>
    { ({ r with buffer }).write [(.packetPointer, bufferAddress), (.eventDisabled, 0),
        (.taskSend, 1)] with phase := .sending }

def verdict (r : Radio) : Reception :=
  if r.registers.value .checksumStatus &&& 1 = 1 then .frame r.buffer else .badChecksum

/-- The end of a transfer starts the receiver; the end of a reception yields its frame. -/
def receive (r : Radio) : Reception × Radio :=
  if r.phase = .off ∨ r.registers.value .eventDisabled = 0 then (.nothing, r)
  else if r.phase = .sending then (.nothing, r.listen)
  else (r.verdict, r.listen)

instance : Medium Radio where
  enabled _ := true
  configure := configure
  canSend r := (r.canSend, r)
  transmit r t := .ok (r.send t.header t.payload)
  receive := receive

/-- The signal strength sampled for the last frame, in -dBm: smaller is stronger. -/
def signal (r : Radio) : UInt8 := (r.registers.value .signalSample &&& 0x7F).toUInt8

instance : SignalSource Radio where
  sample r := (r.signal, r)

def frameArrived (r : Radio) (packet : Packet) (checksumOk : Bool) (sample : Option UInt32) :
    Radio :=
  let registers := r.registers.set .checksumStatus (if checksumOk then 1 else 0)
  let registers := match sample with
    | some s => registers.set .signalSample s
    | none => registers
  let registers := ((registers.set .eventAddress 1).set .eventEnd 1).set .eventDisabled 1
  { r with buffer := packet, registers }

end Radio

end StarNet
