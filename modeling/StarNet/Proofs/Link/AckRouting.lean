import StarNet.Proofs.Node.Answers
import StarNet.Proofs.Node.Noise
import StarNet.Proofs.Node.PacketLifecycle

/-!
The way of an acknowledgement between three nodes: one has sent a packet, one answers it, one only
overhears. A packet sent under its sender's own name is answered to that name, which its sender
takes and nobody else. A packet directed to a node is answered in the name of that node, which its
sender does not take either.
-/
namespace StarNet

/-- A frame as it comes in from a transmission. -/
def Packet.Carries (p : Packet) (t : Transmission) : Prop :=
  p.header = t.header ∧ p.payload = t.payload

namespace Node

def Event.Unlettered (own : Identity) : Event → Prop
  | .heard (.frame p) => ¬ Requests own p.header
  | .sent t => t.purpose ≠ .ack
  | _ => True

/-- On this record `t` is the acknowledgement sent for the frame `q`: no other request came in and
none was answered between the two. -/
def RepliesTo (own : Identity) (log : List Event) (q : Packet) (t : Transmission) : Prop :=
  ∃ before between after, log = before ++ [.heard (.frame q)] ++ between ++ [.sent t] ++ after ∧
    t.purpose = .ack ∧ ∀ e ∈ between, e.Unlettered own

section Record

variable {own : Identity} {trace : Bool} {log es : List Event} {e : Event}

theorem lettersOf_sampled {signal : UInt8} {before : List Event}
    (h : ∀ p rest, before = .heard (.frame p) :: rest → ¬ Requests own p.header) :
    lettersOf own (.sampled signal :: before) = lettersOf own before := by
  rcases before with _ | ⟨e, rest⟩
  · rfl
  · cases e with
    | heard r =>
      cases r with
      | frame p => exact if_neg (h p rest rfl)
      | _ => rfl
    | _ => rfl

theorem lettersOf_suffix_cons (e : Event) (before : List Event) :
    lettersOf own before <:+ lettersOf own (e :: before) := by
  cases e with
  | sent t =>
    change _ <:+ if t.purpose = .ack then _ else _
    split
    · exact List.suffix_cons ..
    · exact List.suffix_rfl
  | sampled signal =>
    by_cases h : ∃ p rest, before = .heard (.frame p) :: rest ∧ Requests own p.header
    · obtain ⟨p, rest, rfl, hreq⟩ := h
      change lettersOf own rest <:+ if Requests own p.header then _ else _
      rw [if_pos hreq]
      exact List.suffix_cons ..
    · have hl := @lettersOf_sampled own signal before fun p rest hb hreq => h ⟨p, rest, hb, hreq⟩
      exact hl ▸ List.suffix_rfl
  | _ => exact List.suffix_rfl

theorem letters_suffix (log es : List Event) : letters own log <:+ letters own (log ++ es) := by
  unfold letters
  rw [List.reverse_append]
  induction es.reverse with
  | nil => exact List.suffix_rfl
  | cons e es ih => exact ih.trans (lettersOf_suffix_cons e _)

theorem Answered.suffix {ls ls' : List Letter} (h : Answered ls') (hs : ls <:+ ls') :
    Answered ls := by
  obtain ⟨front, rfl⟩ := hs
  induction front with
  | nil => exact h
  | cons l front ih =>
    cases l with
    | request t => exact ih h
    | answer t => exact ih h.2

theorem letters_unlettered (hlog : ¬ Unsampled own log) (he : e.Unlettered own) :
    letters own (log ++ [e]) = letters own log ∧ ¬ Unsampled own (log ++ [e]) := by
  cases e with
  | heard r =>
    refine ⟨letters_heard r, ?_⟩
    rintro ⟨p, hp, hreq⟩
    obtain rfl : r = .frame p := by simpa using hp
    exact he hreq
  | sampled signal =>
    refine ⟨?_, not_unsampled_of_ne fun _ => Event.noConfusion⟩
    unfold letters
    rw [List.reverse_append]
    refine lettersOf_sampled fun p before hb hreq => hlog ⟨p, ?_, hreq⟩
    have hb : log.reverse = .heard (.frame p) :: before := hb
    rw [← List.head?_reverse, hb, List.head?_cons]
  | sent t =>
    have ht : t.purpose ≠ .ack := he
    exact ⟨letters_neutral (by simpa [Event.neutral] using ht),
      not_unsampled_of_ne fun _ => Event.noConfusion⟩
  | _ => exact ⟨letters_neutral rfl, not_unsampled_of_ne fun _ => Event.noConfusion⟩

theorem letters_append_unlettered (hlog : ¬ Unsampled own log)
    (hes : ∀ e ∈ es, e.Unlettered own) : letters own (log ++ es) = letters own log := by
  induction es generalizing log with
  | nil => rw [List.append_nil]
  | cons e es ih =>
    obtain ⟨hl, hu⟩ := letters_unlettered hlog (hes e List.mem_cons_self)
    have hrest := ih hu fun e he => hes e (List.mem_cons_of_mem _ he)
    rwa [List.append_assoc, List.singleton_append, hl] at hrest

theorem Correct.sampled_next {q : Packet} {before after : List Event}
    (h : Correct own trace (before ++ [.heard (.frame q)] ++ e :: after))
    (hq : Requests own q.header) : ∃ signal, e = .sampled signal := by
  have hm := h.mannered (before ++ [Event.heard (.frame q)]).length e (by simp)
  rw [List.take_left] at hm
  exact hm.1 ⟨q, by simp, hq⟩

/-- The acknowledgement sent for a request is the one that the request determines. -/
theorem Correct.reply {q : Packet} {t : Transmission} (h : Correct own trace log)
    (hr : RepliesTo own log q t) (hq : Requests own q.header) :
    ∃ signal, t = answerTo own q.header signal := by
  obtain ⟨before, between, after, rfl, hack, hother⟩ := hr
  cases between with
  | nil =>
    rw [List.append_nil, List.append_assoc] at h
    obtain ⟨signal, hs⟩ := h.sampled_next hq
    cases hs
  | cons e between =>
    have hnext := h
    simp only [List.append_assoc (before ++ [.heard (.frame q)]), List.cons_append] at hnext
    obtain ⟨signal, rfl⟩ := hnext.sampled_next hq
    refine ⟨signal, ?_⟩
    have hsampled : ¬ Unsampled own (before ++ [.heard (.frame q)] ++ [.sampled signal]) :=
      not_unsampled_of_ne nofun
    have hletters := letters_append_unlettered hsampled
      fun e he => hother e (List.mem_cons_of_mem _ he)
    rw [letters_sampled, if_pos hq, List.append_assoc, List.singleton_append] at hletters
    have hanswered := h.answered.suffix (letters_suffix _ after)
    rw [letters_answer hack, hletters] at hanswered
    exact (Option.some.inj hanswered.1).symm

end Record

variable {W : Type} [Medium W] [Clock W] [SignalSource W]

/-- What may have become of a node in a run with the log off. -/
def ReachedUntraced (own : Identity) (n : Node (Recorded W)) : Prop :=
  ∃ (w : W) (settings : Settings) (capacity : Nat) (turns : List (Turn W)),
    settings.trace = false ∧ Execution (startRecorded w own settings capacity) turns n

theorem ReachedUntraced.identity {own : Identity} {n : Node (Recorded W)}
    (h : ReachedUntraced own n) : n.identity = own := by
  obtain ⟨w, settings, capacity, turns, -, run⟩ := h
  exact (run.steady (.start ..)).1

theorem ReachedUntraced.undisturbed {own : Identity} {n : Node (Recorded W)}
    (h : ReachedUntraced own n) : (n.amid []).Undisturbed := by
  obtain ⟨w, settings, capacity, turns, untraced, run⟩ := h
  have hs : (startRecorded w own settings capacity).Sound := .start ..
  have hn : n.Sound := run.sound hs
  refine ⟨⟨hn.fits, hn.notes, hn.awaiting⟩, ?_, rfl⟩
  exact run.keeps (I := fun _ n => n.Untraced) hs ⟨untraced, rfl⟩
    (fun _ h he => by rwa [Untraced, he.keeps.2.1]) (fun _ h hm => h.move hm) fun _ h => h

theorem ReachedUntraced.overhears {own : Identity} {n : Node (Recorded W)} {f : Packet}
    (h : ReachedUntraced own n) (hc : f.header.control = true)
    (hne : f.header.node ≠ own.node.number) :
    Alike (poll.run (n.amid [])) (poll.run (n.amid [.frame f])) := by
  have hharmless : Harmless ((n.amid []).veiled [.frame f] n.received) := by
    intro _ _ r hr
    obtain rfl : .frame f = r := by simpa [veiled] using hr
    rw [← h.identity] at hne
    exact .inr ⟨hc, .inr (.inl hne)⟩
  exact poll_follows h.undisturbed hharmless

section Settle

variable {n : Node W} {f : Packet} {w : W}

def settledBy {W : Type} [SignalSource W] (n : Node W) (f : Packet) (w : W) : Node W :=
  { n with
    world := (SignalSource.sample w).2
    received := f
    receiveSignal := (SignalSource.sample w).1
    ackSignal := reportedSignal f.payload
    queue := n.queue.pop
    sendCount := 0 }

omit [Clock W] in
theorem acceptAck_settles (hs : n.Settles f.header) :
    (acceptAck f.header).run { n with world := w, received := f } =
      (do note .acked; noteDepth).run (n.settledBy f w) := by
  obtain ⟨-, -, -, hnode, hqueue, hcount⟩ := hs
  unfold acceptAck
  change StateT.run (if f.header.node = n.identity.node.number ∧ (!n.queue.isEmpty) = true ∧
    0 < n.sendCount then _ else _) _ = _
  rw [if_pos ⟨hnode, by simpa using hqueue, hcount⟩]
  rfl

omit [Clock W] in
theorem acceptFrame_settles (hs : n.Settles f.header) :
    acceptFrame.run { n with world := w, received := f } =
      (do note .acked; noteDepth; return none).run (n.settledBy f w) := by
  have hforeign : (f.header.directed && f.header.node != n.identity.node.number) = false := by
    simpa [Foreign] using hs.1
  unfold acceptFrame
  change StateT.run (if (f.header.directed && f.header.node != n.identity.node.number) = true
    then _ else _) _ = _
  rw [hforeign, if_neg Bool.false_ne_true]
  simp only [hs.2.1, hs.2.2.1, Bool.not_true, Bool.false_eq_true, if_false]
  rw [← bind_assoc, StateT.run_bind, StateT.run_bind (α := Unit), acceptAck_settles hs]

/-- A poll that comes upon the acknowledgement of the head packet starts its transmission without
that packet. -/
theorem poll_settles (hn : n.Untraced) (he : n.enabled = true)
    (hr : Medium.receive n.world = (.frame f, w)) (hs : n.Settles f.header) :
    poll.run n = (do
      note .acked
      noteDepth
      startTransmission
      return none).run (n.settledBy f w) := by
  have hreceive : receive.run n = .ok (.frame f, { n with world := w, received := f }) := by
    refine run_eq_ok ?_
    rw [outcome_receive, hr]
    exact ⟨rfl, rfl⟩
  unfold poll
  change StateT.run (if n.enabled = true then _ else _) n = _
  rw [if_pos he, run_bind_ok (shipTrace_run hn false), run_bind_ok hreceive]
  change StateT.run (acceptFrame >>= _) _ = _
  rw [StateT.run_bind, acceptFrame_settles hs]
  simp only [StateT.run_bind, StateT.run_pure, bind_assoc, pure_bind]

end Settle

omit [Medium W] [Clock W] [SignalSource W] in
theorem of_mem_current {n : Node (Recorded W)} {p : Packet} {t : Transmission}
    (hp : n.queue.head? = some p) (ht : t ∈ n.current) (ha : t.header.wantsAck = true) :
    t.header = p.header ∧ 0 < n.sendCount := by
  have hpos : 0 < n.sendCount := by
    rw [UInt8.pos_iff_ne_zero]
    intro hz
    simp [current_of_zero hz] at ht
  refine ⟨?_, hpos⟩
  unfold current at ht
  rw [hp] at ht
  have ht := List.mem_of_mem_take ht
  unfold attempts at ht
  split at ht
  · rcases List.mem_append.1 ht with ht | ht
    · rw [List.eq_of_mem_replicate ht]
    · rw [List.mem_singleton.1 ht, Header.wantsAck_withoutAck] at ha
      cases ha
  · rw [List.mem_singleton.1 ht]

theorem requests_of_header {own : Identity} {other : NodeId} {h : Header}
    (hh : h = (Header.fromNode other).withAck true ∨ h = (Header.toNode own.node).withAck true)
    (ha : h.wantsAck = true) : Requests own h := by
  rcases hh with rfl | rfl
  · refine ⟨?_, ?_, ha⟩
    · rw [Header.directed_withAck, Header.directed_fromNode]
      exact fun hd => Bool.false_ne_true hd.1
    · rw [Header.control_withAck, Header.control_fromNode]
  · refine ⟨?_, ?_, ha⟩
    · rw [Header.node_withAck, Header.node_toNode]
      exact fun hd => hd.2 rfl
    · rw [Header.control_withAck, Header.control_toNode]

section Routing

variable {A B C : Type} [Medium A] [Clock A] [SignalSource A] [Medium B] [Clock B]
  [SignalSource B] [Medium C] [Clock C] [SignalSource C]

/-- Let the node `a` have sent its head packet, a node `b` have answered one of these transmissions,
and the answer come in at `a` and at a third node. If the packet goes under the name of `a`, then
`a` takes its head packet off the queue and counts from zero before it starts a transmission, and
the third node goes on as if nothing had come in. If the packet is directed to `b`, both of them go
on as if nothing had come in. -/
theorem acknowledgement_finds_sender {a b c : Identity} {left : Node (Recorded A)}
    {right : Node (Recorded B)} {third : Node (Recorded C)} {world : B} {settings : Settings}
    {capacity : Nat} {turns : List (Turn B)} {p q f : Packet} {t u : Transmission}
    (distinct : [a.node, b.node, c.node].Nodup) (sender : ReachedUntraced a left)
    (head : left.queue.head? = some p) (sent : t ∈ left.current)
    (asks : t.header.wantsAck = true)
    (receiver : Execution (startRecorded world b settings capacity) turns right)
    (carried : q.Carries t) (replies : RepliesTo b right.world.log q u) (returned : f.Carries u)
    (bystander : ReachedUntraced c third) :
    (p.header = (Header.fromNode a.node).withAck true →
      (∀ w, left.enabled = true → Medium.receive left.world = (.frame f, w) →
        poll.run left = (do
          note .acked
          noteDepth
          startTransmission
          return none).run (left.settledBy f w) ∧
        left.queue.toList = p :: (left.settledBy f w).queue.toList ∧
        (left.settledBy f w).sendCount = 0) ∧
      Alike (poll.run (third.amid [])) (poll.run (third.amid [.frame f]))) ∧
    (p.header = (Header.toNode b.node).withAck true →
      Alike (poll.run (left.amid [])) (poll.run (left.amid [.frame f])) ∧
      Alike (poll.run (third.amid [])) (poll.run (third.amid [.frame f]))) := by
  obtain ⟨hab, hac, hbc⟩ : a.node ≠ b.node ∧ a.node ≠ c.node ∧ b.node ≠ c.node := by
    simpa [and_assoc] using distinct
  obtain ⟨htp, hcount⟩ := of_mem_current head sent asks
  have hqp : q.header = p.header := carried.1.trans htp
  have hwants : q.header.wantsAck = true := carried.1 ▸ asks
  have hanswering := receiver.answering (.start ..) (.start ..)
  have hb : right.identity = b := (receiver.steady (.start ..)).1
  have hcorrect : Correct b right.settings.trace right.world.log := hb ▸ hanswering.correct
  have hanswer {number : NodeId} (hh : p.header = (Header.fromNode a.node).withAck true ∨
      p.header = (Header.toNode b.node).withAck true) (hnode : p.header.node = number.number) :
      f.header.control = true ∧ f.header.wantsAck = false ∧ f.header.node = number.number := by
    rw [← hqp] at hh hnode
    obtain ⟨signal, rfl⟩ := hcorrect.reply replies (requests_of_header hh hwants)
    rw [returned.1, answerTo, hnode]
    exact ⟨Header.control_ackFor .., Header.wantsAck_ackFor .., Header.node_ackFor ..⟩
  have number_ne {i j : NodeId} (h : i ≠ j) : i.number ≠ j.number := by
    intro hn
    cases i; cases j; cases hn
    exact h rfl
  constructor
  · intro hp
    obtain ⟨hc, hw, hn⟩ := hanswer (.inl hp) (by rw [hp, Header.node_withAck, Header.node_fromNode])
    refine ⟨?_, bystander.overhears hc (hn ▸ number_ne hac)⟩
    intro w he hr
    have hs : left.Settles f.header := by
      rw [← sender.identity] at hn
      exact ⟨fun hd => hd.2 hn, hc, hw, hn, Queue.isEmpty_of_head head, hcount⟩
    refine ⟨poll_settles sender.undisturbed.untraced he hr hs, ?_, rfl⟩
    rw [Queue.toList_of_head head, settledBy, Queue.toList_pop]
  · intro hp
    obtain ⟨hc, -, hn⟩ := hanswer (.inr hp) (by rw [hp, Header.node_withAck, Header.node_toNode])
    exact ⟨sender.overhears hc (hn ▸ number_ne hab.symm),
      bystander.overhears hc (hn ▸ number_ne hbc)⟩

end Routing

def meter : Identity := { node := ⟨7, by decide⟩ }

def relay : Identity := { node := ⟨5, by decide⟩ }

def byteFrame (header : Header) (b : UInt8) : Packet := ⟨header, 1, Buffer.zero.set 0 b⟩

abbrev benchNode (own : Identity) (inbound : List Packet) : Node (Recorded Bench.World) :=
  startRecorded (.scripted 0 { inbound := inbound.map .frame }) own {} 3

def sendByte (b : UInt8) (command : Command) (answer : Packet) :
    List (Happening Bench.World) :=
  [.command (.allocate (·.set 0 b)), .command command,
    .drift (.scripted 0 { inbound := [.frame answer] })]

def heardAndAnswered (q : Packet) (u : Transmission) : List Event :=
  .heard (.frame q) :: [.sampled 0, .noted Mark.received.code,
    .noted (traceDigit (q.module?.getD 0)), .noted (traceDigit 0), .asked true] ++ [.sent u]

theorem repliesTo_of_log {own : Identity} {log : List Event} {q : Packet} {u : Transmission}
    (h : log = heardAndAnswered q u) (hu : u.purpose = .ack) : RepliesTo own log q u := by
  refine ⟨[], _, [], by rw [h, heardAndAnswered, List.append_nil]; rfl, hu, ?_⟩
  intro e he
  simp only [List.mem_cons, List.not_mem_nil, or_false] at he
  rcases he with rfl | rfl | rfl | rfl | rfl <;> trivial

/-- The gateway answers a packet of the meter, and the relay overhears. -/
theorem acknowledgement_finds_meter : ∃ left right w,
    play (benchNode meter []) (sendByte 9 (.send 1 true) (byteFrame ⟨0xC7⟩ 0)) = some left ∧
    play (benchNode {} [byteFrame ⟨0x27⟩ 9]) [.command .poll] = some right ∧
    poll.run left.2 = (do
      note .acked
      noteDepth
      startTransmission
      return none).run (left.2.settledBy (byteFrame ⟨0xC7⟩ 0) w) ∧
    left.2.queue.toList =
      byteFrame ⟨0x27⟩ 9 :: (left.2.settledBy (byteFrame ⟨0xC7⟩ 0) w).queue.toList ∧
    Alike (poll.run ((benchNode relay []).amid []))
      (poll.run ((benchNode relay []).amid [.frame (byteFrame ⟨0xC7⟩ 0)])) := by
  have hrun : (play (benchNode meter [])
      (sendByte 9 (.send 1 true) (byteFrame ⟨0xC7⟩ 0))).any (fun left =>
        left.2.queue.head? = some (byteFrame ⟨0x27⟩ 9) ∧
        ⟨.data, ⟨0x27⟩, [9]⟩ ∈ left.2.current ∧ left.2.enabled = true ∧
        (Medium.receive left.2.world).1 = .frame (byteFrame ⟨0xC7⟩ 0)) = true := by
    decide +kernel
  have hanswer : (play (benchNode {} [byteFrame ⟨0x27⟩ 9]) [.command .poll]).any (fun right =>
      right.2.world.log = heardAndAnswered (byteFrame ⟨0x27⟩ 9) ⟨.ack, ⟨0xC7⟩, [0]⟩) = true := by
    decide +kernel
  obtain ⟨left, hleft, hd⟩ := (Option.any_eq_true ..).1 hrun
  obtain ⟨hhead, hsent, he, hreceive⟩ := of_decide_eq_true hd
  obtain ⟨right, hright, hlog⟩ := (Option.any_eq_true ..).1 hanswer
  have hsender : ReachedUntraced meter left.2 :=
    ⟨_, {}, 3, left.1, rfl, Execution.of_play hleft⟩
  have hbystander : ReachedUntraced relay (benchNode relay []) :=
    ⟨_, {}, 3, [], rfl, .start⟩
  obtain ⟨⟨hsettles, hoverhears⟩, -⟩ := (acknowledgement_finds_sender (by decide) hsender hhead
    hsent (by decide) (Execution.of_play hright) (q := byteFrame ⟨0x27⟩ 9)
    ⟨rfl, by decide⟩ (repliesTo_of_log (of_decide_eq_true hlog) rfl)
    (f := byteFrame ⟨0xC7⟩ 0) ⟨rfl, by decide⟩ hbystander).imp_left fun h => h (by decide)
  obtain ⟨hpoll, hqueue, -⟩ := hsettles (Medium.receive left.2.world).2 he
    (Prod.ext hreceive rfl)
  exact ⟨left, right, _, hleft, hright, hpoll, hqueue, hoverhears⟩

/-- The gateway sends a packet to the relay, which answers it; but the answer leaves the packet at
the head of the queue, still to be acknowledged. -/
theorem directed_packet_stays : ∃ left right,
    play (benchNode {} []) (sendByte 9 (.sendRaw 1 ((Header.toNode relay.node).withAck true))
      (byteFrame ⟨0x45⟩ 0)) = some left ∧
    play (benchNode relay [byteFrame ⟨0xA5⟩ 9]) [.command .poll] = some right ∧
    left.2.queue.toList.map (·.header) = [(Header.toNode relay.node).withAck true] ∧
    ⟨.data, ⟨0xA5⟩, [9]⟩ ∈ left.2.current ∧
    RepliesTo relay right.2.world.log (byteFrame ⟨0xA5⟩ 9) ⟨.ack, ⟨0x45⟩, [0]⟩ ∧
    (Medium.receive left.2.world).1 = .frame (byteFrame ⟨0x45⟩ 0) ∧
    (nodeAfter .poll left.2).queue.toList = left.2.queue.toList ∧
    (nodeAfter .poll left.2).sendCount = 1 := by
  have hrun : (play (benchNode {} [])
      (sendByte 9 (.sendRaw 1 ((Header.toNode relay.node).withAck true))
        (byteFrame ⟨0x45⟩ 0))).any (fun left =>
        left.2.queue.toList.map (·.header) = [(Header.toNode relay.node).withAck true] ∧
        ⟨.data, ⟨0xA5⟩, [9]⟩ ∈ left.2.current ∧
        (Medium.receive left.2.world).1 = .frame (byteFrame ⟨0x45⟩ 0) ∧
        (nodeAfter .poll left.2).queue.toList = left.2.queue.toList ∧
        (nodeAfter .poll left.2).sendCount = 1) = true := by
    decide +kernel
  have hanswer : (play (benchNode relay [byteFrame ⟨0xA5⟩ 9]) [.command .poll]).any (fun right =>
      right.2.world.log = heardAndAnswered (byteFrame ⟨0xA5⟩ 9) ⟨.ack, ⟨0x45⟩, [0]⟩) = true := by
    decide +kernel
  obtain ⟨left, hleft, hd⟩ := (Option.any_eq_true ..).1 hrun
  obtain ⟨hheader, hsent, hreceive, hqueue, hcount⟩ := of_decide_eq_true hd
  obtain ⟨right, hright, hlog⟩ := (Option.any_eq_true ..).1 hanswer
  exact ⟨left, right, hleft, hright, hheader, hsent,
    repliesTo_of_log (of_decide_eq_true hlog) rfl, hreceive, hqueue, hcount⟩

end Node
end StarNet
