import Mathlib.Logic.Relation
import StarNet.Proofs.Node.Outcome

/-!
The moves a node makes: a command touches the free slots of the queue at most once, at its
beginning, and then is a series of moves. A move is a change of the node together with the
dealings with the surroundings that belong to it, under the conditions on which a node makes it.
What is to hold along every run is proved move by move.
-/
namespace StarNet.Node

variable {W : Type} [Medium W] [Clock W] [SignalSource W]

def Foreign {W : Type} (n : Node W) (h : Header) : Prop :=
  h.directed = true ∧ h.node ≠ n.identity.node.number

def Accepts {W : Type} (n : Node W) (h : Header) : Prop := ¬ n.Foreign h ∧ h.control = false

/-- An acknowledgement that settles the head packet. -/
def Settles {W : Type} (n : Node W) (h : Header) : Prop :=
  ¬ n.Foreign h ∧ h.control = true ∧ h.wantsAck = false ∧ h.node = n.identity.node.number ∧
    n.queue.isEmpty = false ∧ 0 < n.sendCount

instance {W : Type} (n : Node W) (h : Header) : Decidable (n.Foreign h) :=
  inferInstanceAs (Decidable (_ ∧ _))
instance {W : Type} (n : Node W) (h : Header) : Decidable (n.Settles h) :=
  inferInstanceAs (Decidable (_ ∧ _))

def owing {W : Type} (n : Node W) (h : Header) (signal : UInt8) : Option PendingAck :=
  if h.wantsAck then some ⟨.ackFor h.node n.identity.node, signal⟩ else n.pendingAck

/-- The transmission of the head packet, up to the notes on it: it is counted and stays at the
head, or it is the last one and asks for nothing. -/
inductive Launch : Node W → Node W → Prop where
  | await (n : Node W) (p : Packet) (w : W) : n.queue.head? = some p →
      p.header.wantsAck = true → n.lastSend = false →
      Medium.transmit n.world ⟨.data, p.header, p.payload⟩ = .ok w →
      Launch n { n with
        world := (Clock.now w).2
        sendCount := n.sendCount + 1
        sendTime := (Clock.now w).1 }
  | depart (n : Node W) (p : Packet) (w : W) : n.queue.head? = some p →
      (p.header.wantsAck = true → n.lastSend = true) →
      Medium.transmit n.world ⟨.data, p.header.withoutAck, p.payload⟩ = .ok w →
      Launch n { n with world := w, queue := n.queue.pop, sendCount := 0 }

/-- A note is made, and the log is shipped if it is nearly full and the medium is free. -/
inductive Noting (code : UInt8) : Node W → Node W → Prop where
  | kept (n : Node W) : (n.trace.push code).nearlyFull = false →
      Noting code n { n with world := Medium.noted n.world code, trace := n.trace.push code }
  | held (n : Node W) : (n.trace.push code).nearlyFull = true →
      (Medium.canSend (Medium.noted n.world code)).1 = false →
      Noting code n { n with
        world := (Medium.canSend (Medium.noted n.world code)).2
        trace := n.trace.push code }
  | shipped (n : Node W) (w : W) : (n.trace.push code).nearlyFull = true →
      (Medium.canSend (Medium.noted n.world code)).1 = true →
      Medium.transmit (Medium.canSend (Medium.noted n.world code)).2
        ⟨.trace, .fromNode n.identity.node, ModuleId.log :: (n.trace.push code).notes⟩ = .ok w →
      Noting code n { n with world := w, trace := (n.trace.push code).clear }

def depthCode {W : Type} (n : Node W) : UInt8 := traceDigit n.queue.count.toUInt8

inductive Move : Node W → Node W → Prop where
  | pause (n : Node W) : Move n { n with world := Clock.pause n.world }
  | configure (n : Node W) (mode : RadioMode) :
      Move n { n with world := Medium.configure n.world n.identity mode }
  | note {n n' : Node W} (code : UInt8) : Noting code n n' → Move n n'
  /-- The medium is asked and taken. -/
  | refuse (n : Node W) : (Medium.canSend n.world).1 = false →
      Move n { n with world := (Medium.canSend n.world).2 }
  /-- The clock is read before the retry time has come, or for a retry that is then refused. -/
  | read (n : Node W) : Move n { n with world := (Clock.now n.world).2 }
  | ship (n : Node W) (force : Bool) (payload : List UInt8) (w : W) :
      n.trace.pending? force = some payload → (Medium.canSend n.world).1 = true →
      Medium.transmit (Medium.canSend n.world).2
        ⟨.trace, .fromNode n.identity.node, payload⟩ = .ok w →
      Move n { n with world := w, trace := n.trace.clear }
  | ignore (n : Node W) (r : Reception) (w : W) : Medium.receive n.world = (r, w) →
      (∀ p, r = .frame p → ¬ n.Accepts p.header ∧ ¬ n.Settles p.header) →
      Move n { n with world := w, received := r.into n.received }
  | deliver (n : Node W) (p : Packet) (w : W) : Medium.receive n.world = (.frame p, w) →
      n.Accepts p.header →
      Move n { n with
        world := (SignalSource.sample w).2
        received := p
        receiveSignal := (SignalSource.sample w).1
        pendingAck := n.owing p.header (SignalSource.sample w).1 }
  | settle (n : Node W) (p : Packet) (w : W) : Medium.receive n.world = (.frame p, w) →
      n.Settles p.header →
      Move n { n with
        world := (SignalSource.sample w).2
        received := p
        receiveSignal := (SignalSource.sample w).1
        ackSignal := reportedSignal p.payload
        queue := n.queue.pop
        sendCount := 0 }
  | answer (n : Node W) (ack : PendingAck) (w : W) : n.pendingAck = some ack →
      (Medium.canSend n.world).1 = true →
      Medium.transmit (Medium.canSend n.world).2 ⟨.ack, ack.header, [ack.signal]⟩ = .ok w →
      Move n { n with world := w, pendingAck := none }
  | first {n n' : Node W} : n.sendCount = 0 → (Medium.canSend n.world).1 = true →
      Launch { n with world := (Medium.canSend n.world).2 } n' → Move n n'
  /-- The head packet goes out again. Two notes, which may ship the log, come in between. -/
  | again {n n₁ n₂ n' : Node W} (deadline : Ticks) : 0 < n.sendCount →
      n.retryTime = .ok deadline → deadline ≤ (Clock.now n.world).1 →
      (Medium.canSend (Clock.now n.world).2).1 = true →
      Noting Mark.resent.code { n with world := (Medium.canSend (Clock.now n.world).2).2 } n₁ →
      Noting n₁.depthCode n₁ n₂ → Launch n₂ n' → Move n n'

abbrev Moves : Node W → Node W → Prop := Relation.ReflTransGen Move

def MediumFails (W : Type) [Medium W] (f : Fault) : Prop :=
  ∃ (w : W) (t : Transmission), Medium.transmit w t = .error f

/-- Why a transmission may break off: the medium fails, or the retry deadline is past the last
tick. -/
def BreaksOff (n : Node W) (f : Fault) : Prop :=
  MediumFails W f ∨ 0 < n.sendCount ∧ n.retryTime = .error f

/-- A program that goes on with a series of moves begun at `o`, unless it breaks off. -/
def Travels {α : Type} (o : Node W) (x : NodeM W α) (n : Node W) (Q : α → Node W → Prop) : Prop :=
  Outcome x n (fun a n' => Moves o n' ∧ Q a n') fun _ => True

end StarNet.Node
