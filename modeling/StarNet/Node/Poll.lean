import StarNet.Node.Send

/-!
One poll: accept at most one frame, then start at most one transmission. An acknowledgement
goes first, then a packet never sent, then one whose retry time has come.
-/
namespace StarNet.Node

variable {W : Type} [Medium W] [Clock W] [SignalSource W]

def oweAck (named : UInt8) : NodeM W Unit :=
  modify fun n =>
    { n with pendingAck := some ⟨.ackFor named n.identity.node, n.receiveSignal⟩ }

/-- A data frame is delivered if it names a module, that is, if its payload is not empty. -/
def acceptData (header : Header) : NodeM W (Option UInt8) := do
  sampleSignal
  if header.wantsAck then oweAck header.node
  let module? := (← get).received.module?
  note .received
  noteCode (traceDigit (module?.getD 0))
  noteDepth
  return module?

def reportedSignal (payload : List UInt8) : UInt8 :=
  match payload with
  | [signal] => signal
  | _ => 0

/-- An acknowledgement in this node's name, while one is awaited, settles the head packet. -/
def acceptAck (header : Header) : NodeM W Unit := do
  let n ← get
  if header.node = n.identity.node.number ∧ !n.queue.isEmpty ∧ 0 < n.sendCount then
    sampleSignal
    modify fun n => { n with ackSignal := reportedSignal n.received.payload }
    dropHead
    note .acked
  else note .strayAck
  noteDepth

/-- Frames directed to other nodes are ignored, and control frames that ask for an
acknowledgement are reserved. -/
def acceptFrame : NodeM W (Option UInt8) := do
  let n ← get
  let header := n.received.header
  if header.directed && header.node != n.identity.node.number then return none
  else if !header.control then acceptData header
  else if header.wantsAck then do
    note .reserved
    return none
  else do
    acceptAck header
    return none

def accept : Reception → NodeM W (Option UInt8)
  | .nothing => return none
  | .badChecksum => do
    note .badChecksum
    return none
  | .frame _ => acceptFrame

def sendAck (ack : PendingAck) : NodeM W Unit := do
  modify fun n => { n with pendingAck := none }
  transmit ⟨.ack, ack.header, [ack.signal]⟩

/-- Sends the head packet if it was never sent, or again if its retry time has come. -/
def resend : NodeM W Unit := do
  let n ← get
  if n.queue.isEmpty then return
  else if n.sendCount = 0 then
    if ← canSend then sendHead
  else
    let now ← readClock
    if (← n.retryTime) ≤ now then
      if ← canSend then
        note .resent
        noteDepth
        sendHead

/-- An acknowledgement that finds the medium taken lets the head packet ask once more. -/
def startTransmission : NodeM W Unit := do
  match (← get).pendingAck with
  | none => resend
  | some ack => if ← canSend then sendAck ack else resend

/-- Drives receiving and sending; called on every pass of the main loop. Answers the module of
a data frame just received. -/
def poll : NodeM W (Option UInt8) := do
  if (← get).enabled then
    shipTrace false
    let delivered ← accept (← receive)
    startTransmission
    return delivered
  else return none

end StarNet.Node
