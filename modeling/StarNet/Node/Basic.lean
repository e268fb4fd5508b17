import StarNet.Medium
import StarNet.Node.Queue
import StarNet.Node.TraceLog

/-!
A node of the star network. One packet at a time is in flight, the head of the queue; it is sent
again every retry interval until it is acknowledged or its sends are used up. Acknowledgements
owed to others wait in a single place. Every operation is a step on a `Node`, which a `Fault`
ends.
-/
namespace StarNet

structure Settings where
  retryInterval : Ticks := 100000
  /-- Transmissions of a packet in all; the last one asks for no acknowledgement. -/
  maxSends : UInt8 := 8
  trace : Bool := false
  deriving DecidableEq, Repr

/-- An acknowledgement that waits for the medium; its only payload byte is the signal quality
of the frame it answers. -/
structure PendingAck where
  header : Header
  signal : UInt8
  deriving DecidableEq, Repr

structure Node (W : Type) where
  world : W
  settings : Settings
  identity : Identity
  queue : Queue
  sendCount : UInt8 := 0
  sendTime : Ticks := 0
  pendingAck : Option PendingAck := none
  received : Packet := {}
  /-- Signal quality reported by the last acknowledgement that was accepted. -/
  ackSignal : UInt8 := 0
  /-- Signal quality sampled for the last frame that was accepted. -/
  receiveSignal : UInt8 := 0
  trace : TraceLog

abbrev NodeM (W : Type) := StateT (Node W) (Except Fault)

namespace Node

def defaultCapacity : Nat := 3

/-- The medium is left alone until it is configured. -/
def start {W : Type} (world : W) (identity : Identity) (settings : Settings)
    (capacity : Nat) : Node W where
  world
  settings
  identity
  queue := .ofCapacity capacity
  trace := { enabled := settings.trace }

variable {W : Type} [Medium W] [Clock W] [SignalSource W]

def enabled (n : Node W) : Bool := Medium.enabled n.world

def busy {W : Type} (n : Node W) : Bool := !n.queue.isEmpty || n.pendingAck.isSome

def retryTime {W : Type} (n : Node W) : Except Fault Ticks :=
  if n.sendTime.toNat + n.settings.retryInterval.toNat < UInt64.size then
    .ok (n.sendTime + n.settings.retryInterval)
  else .error .clockOverflow

def canSend : NodeM W Bool := do
  let n ← get
  let (free, world) := Medium.canSend n.world
  set { n with world }
  return free

def transmit (t : Transmission) : NodeM W Unit := do
  let n ← get
  let world ← Medium.transmit n.world t
  set { n with world }

def receive : NodeM W Reception := do
  let n ← get
  let (reception, world) := Medium.receive n.world
  set { n with world, received := reception.into n.received }
  return reception

def readClock : NodeM W Ticks := do
  let n ← get
  let (time, world) := Clock.now n.world
  set { n with world }
  return time

def pause : NodeM W Unit :=
  modify fun n => { n with world := Clock.pause n.world }

def sampleSignal : NodeM W Unit := do
  let n ← get
  let (receiveSignal, world) := SignalSource.sample n.world
  set { n with world, receiveSignal }

/-- Ships the trace log when it is due, or on demand, if the medium is free. -/
def shipTrace (force : Bool) : NodeM W Unit := do
  match (← get).trace.pending? force with
  | none => return
  | some payload =>
    if ← canSend then
      transmit ⟨.trace, .fromNode (← get).identity.node, payload⟩
      modify fun n => { n with trace := n.trace.clear }

def noteCode (code : UInt8) : NodeM W Unit := do
  modify fun n => { n with world := Medium.noted n.world code, trace := n.trace.push code }
  if (← get).trace.nearlyFull then shipTrace false

def note (mark : Mark) : NodeM W Unit := noteCode mark.code

def noteDepth : NodeM W Unit := do
  noteCode (traceDigit (← get).queue.count.toUInt8)

end Node

end StarNet
