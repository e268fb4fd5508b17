import StarNet.Radio.Driver
import StarNet.Bench.Pin
import StarNet.Bench.Uart

/-!
Surroundings for a node on the bench: a medium of any kind, a clock that moves only when told
to, and a signal source.
-/
namespace StarNet.Bench

structure TickClock where
  time : Ticks := 0
  pauseTicks : Ticks := 1000
  /-- Runs by itself: its readings are not the bench's business and nothing moves it. -/
  running : Bool := false

def TickClock.advance (c : TickClock) (ticks : Ticks) : TickClock :=
  if c.running then c
  else { c with time := UInt64.ofNat (min (c.time.toNat + ticks.toNat) (UInt64.size - 1)) }

def TickClock.moveTo (c : TickClock) (time : Ticks) : TickClock :=
  if c.running then c else { c with time }

instance : Clock TickClock where
  now c := (if c.running then 0 else c.time, c)
  pause c := c.advance c.pauseTicks

structure SentFrame where
  time : Ticks
  header : Header
  payload : List UInt8

structure Configured where
  identity : Identity
  mode : RadioMode

/-- A medium that answers by script and keeps a log. -/
structure ScriptedMedium where
  /-- Answers on being free, ahead of the medium's own. -/
  answers : List Bool := []
  busy : Bool := false
  /-- Polls a transmission takes. -/
  sendTime : Nat := 0
  sendLeft : Nat := 0
  inbound : List Reception := []
  sent : List SentFrame := []
  configured : List Configured := []

namespace ScriptedMedium

def canSend (m : ScriptedMedium) : Bool × ScriptedMedium :=
  match m.answers with
  | answer :: answers => (answer, { m with answers })
  | [] => (!m.busy && m.sendLeft == 0, m)

def transmit (m : ScriptedMedium) (time : Ticks) (frame : Transmission) : ScriptedMedium :=
  { m with
    sent := m.sent ++ [⟨time, frame.header, frame.payload⟩]
    sendLeft := m.sendTime }

/-- Nothing comes in while a transmission takes place. -/
def receive (m : ScriptedMedium) : Reception × ScriptedMedium :=
  if 0 < m.sendLeft then (.nothing, { m with sendLeft := m.sendLeft - 1 })
  else match m.inbound with
    | reception :: inbound => (reception, { m with inbound })
    | [] => (.nothing, m)

end ScriptedMedium

inductive Carrier where
  | scripted (medium : ScriptedMedium)
  | serial (transceiver : Serial.Transceiver Uart)
  | absent
  | radio (radio : Radio)

inductive Signal where
  | silent
  | steady (level : UInt8)
  | analog (source : AnalogSignal CyclicPin)
  | radio

structure World where
  carrier : Carrier
  clock : TickClock := {}
  signal : Signal := .silent

namespace World

def scripted (time : Ticks) (medium : ScriptedMedium) : World :=
  { carrier := .scripted medium, clock := { time } }

def canSend (w : World) : Bool × World :=
  match w.carrier with
  | .scripted m =>
    let (free, m) := m.canSend
    (free, { w with carrier := .scripted m })
  | .serial t =>
    let (free, t) := t.canSend
    (free, { w with carrier := .serial t })
  | .absent => (false, w)
  | .radio r => (r.canSend, w)

def transmit (w : World) (frame : Transmission) : Except Fault World :=
  match w.carrier with
  | .scripted m => .ok { w with carrier := .scripted (m.transmit w.clock.time frame) }
  | .serial t => do return { w with carrier := .serial (← Medium.transmit t frame) }
  | .absent => .ok w
  | .radio r => do return { w with carrier := .radio (← Medium.transmit r frame) }

def receive (w : World) : Reception × World :=
  match w.carrier with
  | .scripted m =>
    let (reception, m) := m.receive
    (reception, { w with carrier := .scripted m })
  | .serial t =>
    let (reception, t) := t.receive
    (reception, { w with carrier := .serial t })
  | .absent => (.nothing, w)
  | .radio r =>
    let (reception, r) := r.receive
    (reception, { w with carrier := .radio r })

def configure (w : World) (identity : Identity) (mode : RadioMode) : World :=
  match w.carrier with
  | .scripted m =>
    { w with carrier := .scripted { m with configured := m.configured ++ [⟨identity, mode⟩] } }
  | .radio r => { w with carrier := .radio (r.configure identity mode) }
  | _ => w

def enabled (w : World) : Bool :=
  match w.carrier with
  | .absent => false
  | _ => true

instance : Medium World where
  enabled := enabled
  configure := configure
  canSend := canSend
  transmit := transmit
  receive := receive

instance : Clock World where
  now w :=
    let (time, clock) := Clock.now w.clock
    (time, { w with clock })
  pause w := { w with clock := Clock.pause w.clock }

def sample (w : World) : UInt8 × World :=
  match w.signal with
  | .silent => (0, w)
  | .steady level => (level, w)
  | .analog source =>
    let (level, source) := SignalSource.sample source
    (level, { w with signal := .analog source })
  | .radio =>
    match w.carrier with
    | .radio r => (r.signal, w)
    | _ => (0, w)

instance : SignalSource World := ⟨sample⟩

def advance (w : World) (ticks : Ticks) : World := { w with clock := w.clock.advance ticks }

def moveTo (w : World) (time : Ticks) : World := { w with clock := w.clock.moveTo time }

def script (w : World) (change : ScriptedMedium → ScriptedMedium) : World :=
  match w.carrier with
  | .scripted m => { w with carrier := .scripted (change m) }
  | _ => w

def wire (w : World) (change : Serial.Transceiver Uart → Serial.Transceiver Uart) : World :=
  match w.carrier with
  | .serial t => { w with carrier := .serial (change t) }
  | _ => w

def hardware (w : World) (change : Radio → Radio) : World :=
  match w.carrier with
  | .radio r => { w with carrier := .radio (change r) }
  | _ => w

def clearLog (w : World) : World :=
  match w.carrier with
  | .scripted m => { w with carrier := .scripted { m with sent := [], configured := [] } }
  | .serial t => { w with carrier := .serial { t with line := { t.line with recent := #[] } } }
  | .absent => w
  | .radio r =>
    { w with carrier := .radio { r with registers := { r.registers with written := [] } } }

end World

end StarNet.Bench
