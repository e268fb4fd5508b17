import StarNet.Node.Basic

/-!
Queueing packets and transmitting the head of the queue.
-/
namespace StarNet.Node

variable {W : Type} [Medium W] [Clock W]

/-- Shows the buffer of the next free slot and lets the caller change it. Until it is committed
by a send, the next allocation shows the same buffer again. -/
def allocate (change : Buffer → Buffer) : NodeM W (Option Buffer) := do
  let n ← get
  if n.enabled then
    set { n with queue := n.queue.fill change }
    return n.queue.allocate?
  else return none

def dropHead : NodeM W Unit :=
  modify fun n => { n with queue := n.queue.pop, sendCount := 0 }

def awaitAck : NodeM W Unit := do
  let n ← get
  if n.sendCount = 255 then throw .countOverflow
  else
    set { n with sendCount := n.sendCount + 1 }
    let now ← readClock
    modify fun n => { n with sendTime := now }

def lastSend {W : Type} (n : Node W) : Bool :=
  n.settings.maxSends.toNat ≤ n.sendCount.toNat + 1

theorem lt_maxSends_of_lastSend {W : Type} {n : Node W} (h : n.lastSend = false) :
    n.sendCount.toNat + 1 < n.settings.maxSends.toNat := by
  simpa [lastSend] using h

/-- The send count does not wrap before the last transmission. -/
theorem toNat_sendCount_add_one {W : Type} {n : Node W} (h : n.lastSend = false) :
    (n.sendCount + 1).toNat = n.sendCount.toNat + 1 := by
  have hlt := lt_maxSends_of_lastSend h
  have hmax := n.settings.maxSends.toNat_lt
  rw [UInt8.toNat_add, UInt8.toNat_one, Nat.mod_eq_of_lt (by omega)]

/-- A packet that is still to be acknowledged stays at the head, any other one leaves. -/
def sendHead : NodeM W Unit := do
  let n ← get
  match n.queue.head? with
  | none => return
  | some packet =>
    let header := if n.lastSend then packet.header.withoutAck else packet.header
    transmit ⟨.data, header, packet.payload⟩
    if header.wantsAck then awaitAck else dropHead
    note .sent
    noteDepth

/-- Commits the allocated buffer under any header. Onto an empty queue, the packet goes out at
once if the medium is free. -/
def sendRaw (length : UInt8) (header : Header) : NodeM W (Except SendError Unit) := do
  let n ← get
  if n.enabled then
    match n.queue.push header length with
    | .error e => return .error e
    | .ok queue =>
      set { n with queue }
      note .queued
      if (← get).queue.count = 1 then
        if ← canSend then sendHead else note .held
      return .ok ()
  else return .error .disabled

/-- Commits the allocated buffer as a packet to the gateway. -/
def send (length : UInt8) (ack : Bool) : NodeM W (Except SendError Unit) := do
  sendRaw length ((Header.fromNode (← get).identity.node).withAck ack)

/-- Commits the allocated buffer as a packet to every node, which is never acknowledged. -/
def broadcast (length : UInt8) : NodeM W (Except SendError Unit) := do
  sendRaw length (.fromNode (← get).identity.node)

end StarNet.Node
