import StarNet.Proofs.Node.Move

/-!
What a command does, stage by stage. A pass is one poll: the log is shipped if it is due, one frame
is heard, and at most one transmission is started. The other commands run errands, which hear
nothing and answer nothing. Moves say what may happen; stages also say in which order it does.
-/
namespace StarNet.Node

variable {W : Type} [Medium W] [Clock W] [SignalSource W]

abbrev Remarks : Node W → Node W → Prop :=
  Relation.ReflTransGen fun n n' => ∃ code, Noting code n n'

inductive Ships (force : Bool) : Node W → Node W → Prop where
  | undue (n : Node W) : n.trace.pending? force = none → Ships force n n
  | held (n : Node W) (payload : List UInt8) : n.trace.pending? force = some payload →
      (Medium.canSend n.world).1 = false →
      Ships force n { n with world := (Medium.canSend n.world).2 }
  | shipped (n : Node W) (payload : List UInt8) (w : W) :
      n.trace.pending? force = some payload → (Medium.canSend n.world).1 = true →
      Medium.transmit (Medium.canSend n.world).2
        ⟨.trace, .fromNode n.identity.node, payload⟩ = .ok w →
      Ships force n { n with world := w, trace := n.trace.clear }

/-- One question for a frame, with what becomes of the frame that came and what is delivered. -/
inductive Hears : Node W → Option UInt8 → Node W → Prop where
  | ignore (n : Node W) (r : Reception) (w : W) : Medium.receive n.world = (r, w) →
      (∀ p, r = .frame p → ¬ n.Accepts p.header ∧ ¬ n.Settles p.header) →
      Hears n none { n with world := w, received := r.into n.received }
  | deliver (n : Node W) (p : Packet) (w : W) : Medium.receive n.world = (.frame p, w) →
      n.Accepts p.header →
      Hears n p.module? { n with
        world := (SignalSource.sample w).2
        received := p
        receiveSignal := (SignalSource.sample w).1
        pendingAck := n.owing p.header (SignalSource.sample w).1 }
  | settle (n : Node W) (p : Packet) (w : W) : Medium.receive n.world = (.frame p, w) →
      n.Settles p.header →
      Hears n none { n with
        world := (SignalSource.sample w).2
        received := p
        receiveSignal := (SignalSource.sample w).1
        ackSignal := reportedSignal p.payload
        queue := n.queue.pop
        sendCount := 0 }

def Launches (n n' : Node W) : Prop := ∃ m, Launch n m ∧ Remarks m n'

/-- What is done about a packet that was just committed: it waits behind others, or it asks for the
medium and goes out, or is held. -/
inductive Dispatches : Node W → Node W → Prop where
  | behind (n : Node W) : n.queue.count ≠ 1 → Dispatches n n
  | held {n n' : Node W} : n.queue.count = 1 → (Medium.canSend n.world).1 = false →
      Noting Mark.held.code { n with world := (Medium.canSend n.world).2 } n' → Dispatches n n'
  | goes {n n' : Node W} : n.queue.count = 1 → (Medium.canSend n.world).1 = true →
      Launches { n with world := (Medium.canSend n.world).2 } n' → Dispatches n n'

/-- What is done about the head packet: it goes out if it was never sent or its retry time has come,
and the medium is free. -/
inductive Resends : Node W → Node W → Prop where
  | empty (n : Node W) : n.queue.isEmpty = true → Resends n n
  | held (n : Node W) : n.queue.isEmpty = false → n.sendCount = 0 →
      (Medium.canSend n.world).1 = false →
      Resends n { n with world := (Medium.canSend n.world).2 }
  | first {n n' : Node W} : n.queue.isEmpty = false → n.sendCount = 0 →
      (Medium.canSend n.world).1 = true →
      Launches { n with world := (Medium.canSend n.world).2 } n' → Resends n n'
  | early (n : Node W) (deadline : Ticks) : n.queue.isEmpty = false → 0 < n.sendCount →
      n.retryTime = .ok deadline → (Clock.now n.world).1 < deadline →
      Resends n { n with world := (Clock.now n.world).2 }
  | refused (n : Node W) (deadline : Ticks) : n.queue.isEmpty = false → 0 < n.sendCount →
      n.retryTime = .ok deadline → deadline ≤ (Clock.now n.world).1 →
      (Medium.canSend (Clock.now n.world).2).1 = false →
      Resends n { n with world := (Medium.canSend (Clock.now n.world).2).2 }
  | again {n n₁ n₂ n' : Node W} (deadline : Ticks) : n.queue.isEmpty = false → 0 < n.sendCount →
      n.retryTime = .ok deadline → deadline ≤ (Clock.now n.world).1 →
      (Medium.canSend (Clock.now n.world).2).1 = true →
      Noting Mark.resent.code { n with world := (Medium.canSend (Clock.now n.world).2).2 } n₁ →
      Noting n₁.depthCode n₁ n₂ → Launches n₂ n' → Resends n n'

/-- The transmission of a pass: an acknowledgement first. One that finds the medium taken stays
owed, and the head packet asks once more. -/
inductive Starts : Node W → Node W → Prop where
  | unowing {n n' : Node W} : n.pendingAck = none → Resends n n' → Starts n n'
  | answer (n : Node W) (ack : PendingAck) (w : W) : n.pendingAck = some ack →
      (Medium.canSend n.world).1 = true →
      Medium.transmit (Medium.canSend n.world).2 ⟨.ack, ack.header, [ack.signal]⟩ = .ok w →
      Starts n { n with world := w, pendingAck := none }
  | refused {n n' : Node W} (ack : PendingAck) : n.pendingAck = some ack →
      (Medium.canSend n.world).1 = false →
      Resends { n with world := (Medium.canSend n.world).2 } n' → Starts n n'

inductive Pass : Node W → Option UInt8 → Node W → Prop where
  | off (n : Node W) : n.enabled = false → Pass n none n
  | on {n n₁ n₂ n₃ n' : Node W} {delivered : Option UInt8} : n.enabled = true →
      Ships false n n₁ → Hears n₁ delivered n₂ → Remarks n₂ n₃ → Starts n₃ n' →
      Pass n delivered n'

inductive Passes : Node W → FlushResult → Node W → Prop where
  | drained (n : Node W) : n.busy = false → Passes n .drained n
  | delivered {n n' : Node W} {m : UInt8} : n.busy = true → Pass n (some m) n' →
      Passes n (.delivered m) n'
  | stuck {n n' : Node W} : n.busy = true → Pass n none n' → Passes n .stuck n'
  | again {n m n' : Node W} {result : FlushResult} : n.busy = true → Pass n none m →
      Passes { m with world := Clock.pause m.world } result n' → Passes n result n'

inductive Flushes : Node W → FlushResult → Node W → Prop where
  | idle {n n' : Node W} {delivered : Option UInt8} : n.busy = false → Pass n delivered n' →
      Flushes n (.ofPoll delivered) n'
  | busy {n n' : Node W} {result : FlushResult} : n.busy = true → Passes n result n' →
      Flushes n result n'

/-- A move that neither hears nor answers. -/
inductive Errand : Node W → Node W → Prop where
  | configure (n : Node W) (mode : RadioMode) :
      Errand n { n with world := Medium.configure n.world n.identity mode }
  | note {n n' : Node W} (code : UInt8) : Noting code n n' → Errand n n'
  | refuse (n : Node W) : (Medium.canSend n.world).1 = false →
      Errand n { n with world := (Medium.canSend n.world).2 }
  | read (n : Node W) : Errand n { n with world := (Clock.now n.world).2 }
  | ship (n : Node W) (force : Bool) (payload : List UInt8) (w : W) :
      n.trace.pending? force = some payload → (Medium.canSend n.world).1 = true →
      Medium.transmit (Medium.canSend n.world).2
        ⟨.trace, .fromNode n.identity.node, payload⟩ = .ok w →
      Errand n { n with world := w, trace := n.trace.clear }
  | first {n n' : Node W} : n.sendCount = 0 → (Medium.canSend n.world).1 = true →
      Launch { n with world := (Medium.canSend n.world).2 } n' → Errand n n'
  | again {n n₁ n₂ n' : Node W} (deadline : Ticks) : 0 < n.sendCount →
      n.retryTime = .ok deadline → deadline ≤ (Clock.now n.world).1 →
      (Medium.canSend (Clock.now n.world).2).1 = true →
      Noting Mark.resent.code { n with world := (Medium.canSend (Clock.now n.world).2).2 } n₁ →
      Noting n₁.depthCode n₁ n₂ → Launch n₂ n' → Errand n n'

abbrev Errands : Node W → Node W → Prop := Relation.ReflTransGen Errand

theorem Errand.move {n n' : Node W} (h : Errand n n') : Move n n' := by
  cases h with
  | configure mode => exact .configure n mode
  | note code hn => exact .note code hn
  | refuse hf => exact .refuse n hf
  | read => exact .read n
  | ship force payload w hp hf ht => exact .ship n force payload w hp hf ht
  | first hc hf hl => exact .first hc hf hl
  | again deadline hpos hd hdue hf h₁ h₂ hl => exact .again deadline hpos hd hdue hf h₁ h₂ hl

theorem Errands.moves {n n' : Node W} (h : Errands n n') : Moves n n' :=
  Relation.ReflTransGen.mono (fun _ _ h => h.move) _ _ h

omit [SignalSource W] in
theorem Remarks.errands {n n' : Node W} (h : Remarks n n') : Errands n n' :=
  Relation.ReflTransGen.mono (fun _ _ ⟨code, h⟩ => .note code h) _ _ h

omit [SignalSource W] in
theorem Ships.errands {n n' : Node W} {force : Bool} (h : Ships force n n') : Errands n n' := by
  cases h with
  | undue => exact .refl
  | held payload _ hf => exact .single (.refuse n hf)
  | shipped payload w hp hf ht => exact .single (.ship n force payload w hp hf ht)

omit [SignalSource W] in
theorem Dispatches.errands {n n' : Node W} (h : Dispatches n n')
    (hs : n.queue.count = 1 → n.sendCount = 0) : Errands n n' := by
  cases h with
  | behind => exact .refl
  | held _ hf hn => exact .head (.refuse n hf) (.single (.note _ hn))
  | goes hone hf hl =>
    obtain ⟨m, hl, hr⟩ := hl
    exact .head (.first (hs hone) hf hl) hr.errands

omit [SignalSource W] in
theorem Resends.errands {n n' : Node W} (h : Resends n n') : Errands n n' := by
  cases h with
  | empty => exact .refl
  | held _ _ hf => exact .single (.refuse n hf)
  | first _ hc hf hl =>
    obtain ⟨m, hl, hr⟩ := hl
    exact (Relation.ReflTransGen.single (.first hc hf hl)).trans hr.errands
  | early => exact .single (.read n)
  | refused deadline _ _ _ _ hf =>
    exact (Relation.ReflTransGen.single (.read n)).tail (.refuse _ hf)
  | again deadline _ hpos hd hdue hf h₁ h₂ hl =>
    obtain ⟨m, hl, hr⟩ := hl
    exact (Relation.ReflTransGen.single (.again deadline hpos hd hdue hf h₁ h₂ hl)).trans hr.errands

theorem Hears.move {n n' : Node W} {delivered : Option UInt8} (h : Hears n delivered n') :
    Move n n' := by
  cases h with
  | ignore r w hr hno => exact .ignore n r w hr hno
  | deliver p w hr ha => exact .deliver n p w hr ha
  | settle p w hr hs => exact .settle n p w hr hs

theorem Move.stage {n n' : Node W} (hm : Move n n') : Errand n n' ∨
    (∃ delivered, Hears n delivered n') ∨ Starts n n' ∨
      n' = { n with world := Clock.pause n.world } := by
  cases hm with
  | pause => exact .inr (.inr (.inr rfl))
  | configure mode => exact .inl (.configure n mode)
  | note code hn => exact .inl (.note code hn)
  | refuse hf => exact .inl (.refuse n hf)
  | read => exact .inl (.read n)
  | ship force payload w hp hf ht => exact .inl (.ship n force payload w hp hf ht)
  | ignore r w hr hno => exact .inr (.inl ⟨_, .ignore n r w hr hno⟩)
  | deliver p w hr ha => exact .inr (.inl ⟨_, .deliver n p w hr ha⟩)
  | settle p w hr hs => exact .inr (.inl ⟨_, .settle n p w hr hs⟩)
  | answer ack w ha hf ht => exact .inr (.inr (.inl (.answer n ack w ha hf ht)))
  | first hc hf hl => exact .inl (.first hc hf hl)
  | again deadline hpos hd hdue hf h₁ h₂ hl =>
    exact .inl (.again deadline hpos hd hdue hf h₁ h₂ hl)

end StarNet.Node
