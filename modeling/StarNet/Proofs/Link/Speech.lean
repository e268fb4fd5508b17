import StarNet.Proofs.Link.Station

/-!
What a node keeps to on a link, whatever its peer does: its data frames are the transmissions they
are numbered as, its acknowledgements answer data frames that were handed to it, and both are
numbered upwards. A step of the node sends further frames that keep to it too.
-/
namespace StarNet

namespace Node

variable {E : Type}

def awaited (n : Node (Station E)) : List Transmission :=
  match n.queue.head? with
  | some p => List.replicate n.sendCount.toNat ⟨.data, p.header, p.payload⟩
  | none => []

theorem awaited_of_zero {n : Node (Station E)} (h : n.sendCount = 0) : n.awaited = [] := by
  unfold awaited
  split <;> simp [h]

theorem awaited_suffix_of_zero {n : Node (Station E)} (h : n.sendCount = 0)
    (ts : List Transmission) : n.awaited <:+ ts := by
  rw [awaited_of_zero h]
  exact List.nil_suffix

def first (n : Node (Station E)) : Nat := n.world.sent.length - n.sendCount.toNat

/-- `fs` are the frames of this node that the peer got or may still get. -/
structure Speaks (n : Node (Station E)) (fs : List Frame) : Prop where
  sound : n.Sound
  inbound : Orderly (n.world.handed ++ n.world.incoming)
  orderly : Orderly fs
  recorded : ∀ f ∈ fs, f.purpose = .data → n.world.sent[f.number]? = some f.toTransmission
  queued : ∀ p ∈ n.queue.toList, p.header.directed = false ∧ p.header.control = false
  latest : n.awaited <:+ n.world.sent
  owed : ∀ ack, n.pendingAck = some ack → ack.header.control = true ∧
    ack.header.wantsAck = false ∧ ∃ g ∈ n.world.handed, g.asks = true
  answered : ∀ f ∈ fs, f.purpose = .ack →
    (∃ g ∈ n.world.handed, g.asks = true ∧ g.number = f.number) ∧
      f.number ≤ n.world.answering ∧ (n.pendingAck.isSome → f.number < n.world.answering)

structure Clear (j : Nat) (n : Node (Station E)) : Prop where
  incoming : ∀ f ∈ n.world.incoming, f.asks = true → j ≤ f.number
  owing : n.pendingAck.isSome → j ≤ n.world.answering

/-- From `n` to `n'` the frames `gs` are sent after `fs`. -/
structure Emits (n n' : Node (Station E)) (fs gs : List Frame) : Prop where
  speaks : n'.Speaks (fs ++ gs)
  outgoing : n'.world.outgoing = n.world.outgoing ++ gs
  inbound : n'.world.handed ++ n'.world.incoming = n.world.handed ++ n.world.incoming
  incoming : n'.world.incoming <:+ n.world.incoming
  grows : n.world.sent.length ≤ n'.world.sent.length
  later : ∀ g ∈ gs, g.purpose = .data → n.world.sent.length ≤ g.number
  clear : ∀ j, Clear j n → Clear j n' ∧ ∀ g ∈ gs, g.purpose = .ack → j ≤ g.number

theorem Emits.trans {n m k : Node (Station E)} {fs gs hs : List Frame} (h : Emits n m fs gs)
    (h' : Emits m k (fs ++ gs) hs) : Emits n k fs (gs ++ hs) where
  speaks := by
    rw [← List.append_assoc]
    exact h'.speaks
  outgoing := by rw [h'.outgoing, h.outgoing, List.append_assoc]
  inbound := h'.inbound.trans h.inbound
  incoming := h'.incoming.trans h.incoming
  grows := Nat.le_trans h.grows h'.grows
  later g hg hp := by
    rcases List.mem_append.1 hg with hg | hg
    · exact h.later g hg hp
    · exact Nat.le_trans h.grows (h'.later g hg hp)
  clear j hj := by
    obtain ⟨hm, hgs⟩ := h.clear j hj
    obtain ⟨hk, hhs⟩ := h'.clear j hm
    refine ⟨hk, ?_⟩
    intro g hg hp
    rcases List.mem_append.1 hg with hg | hg
    · exact hgs g hg hp
    · exact hhs g hg hp

theorem Speaks.quiet {n m : Node (Station E)} {fs : List Frame} {site : E} (h : n.Speaks fs)
    (hs : m.Sound) (hw : m.world = { n.world with site })
    (hq : ∀ p ∈ m.queue.toList, p.header.directed = false ∧ p.header.control = false)
    (hl : m.awaited <:+ n.world.sent) (hp : m.pendingAck = n.pendingAck) :
    Emits n m fs [] := by
  constructor
  · rw [List.append_nil]
    refine ⟨hs, ?_, h.orderly, ?_, hq, ?_, ?_, ?_⟩
    · rw [hw]
      exact h.inbound
    · rw [hw]
      exact h.recorded
    · rw [hw]
      exact hl
    · rw [hp, hw]
      exact h.owed
    · rw [hp, hw]
      exact h.answered
  · rw [hw, List.append_nil]
  · rw [hw]
  · exact ⟨[], by rw [hw]; rfl⟩
  · exact Nat.le_of_eq (by rw [hw])
  · exact nofun
  · intro j hj
    refine ⟨⟨?_, ?_⟩, nofun⟩
    · rw [hw]
      exact hj.incoming
    · rw [hp, hw]
      exact hj.owing

theorem Speaks.emit {n n' : Node (Station E)} {fs : List Frame} {e : E} {t : Transmission}
    (h : n.Speaks fs) (hs : n'.Sound) (hw : n'.world = n.world.emit e t)
    (hplain : (n.world.frame t).Plain) (hq : ∀ p ∈ n'.queue.toList, p ∈ n.queue.toList)
    (hl : n'.awaited <:+ n'.world.sent) (ha : t.purpose = .ack → n.pendingAck.isSome)
    (hp : n'.pendingAck = if t.purpose = .ack then none else n.pendingAck) :
    Emits n n' fs [n.world.frame t] := by
  have hsent : n'.world.sent = if t.purpose = .data then n.world.sent ++ [t] else n.world.sent := by
    rw [hw]
    rfl
  have hprefix : n.world.sent <+: n'.world.sent := by
    rw [hsent]
    split
    · exact List.prefix_append ..
    · exact List.prefix_refl _
  have hhanded : n'.world.handed = n.world.handed := by rw [hw]; rfl
  have hincoming : n'.world.incoming = n.world.incoming := by rw [hw]; rfl
  have hanswering : n'.world.answering = n.world.answering := by rw [hw]; rfl
  have hpending (hsome : n'.pendingAck.isSome) :
      t.purpose ≠ .ack ∧ n'.pendingAck = n.pendingAck := by
    rw [hp] at hsome ⊢
    split at hsome
    · simp at hsome
    · rename_i hack
      exact ⟨hack, if_neg hack⟩
  have hbelow (g : Frame) (hg : g ∈ fs) (hd : g.purpose = .data) :
      g.number < n.world.sent.length := (List.getElem?_eq_some_iff.1 (h.recorded g hg hd)).1
  have horderly : Orderly (fs ++ [n.world.frame t]) := by
    apply h.orderly.concat hplain
    · intro hd g hg hgd
      have hd : t.purpose = .data := hd
      simp only [Station.frame, hd]
      exact hbelow g hg hgd
    · intro hack g hg hga
      have hack : t.purpose = .ack := hack
      simp only [Station.frame, hack]
      exact (h.answered g hg hga).2.2 (ha hack)
  have hrecorded : ∀ f ∈ fs ++ [n.world.frame t], f.purpose = .data →
      n'.world.sent[f.number]? = some f.toTransmission := by
    intro f hf hd
    rcases List.mem_append.1 hf with hf | hf
    · obtain ⟨ts, hts⟩ := hprefix
      rw [← hts, List.getElem?_append_left (hbelow f hf hd)]
      exact h.recorded f hf hd
    · obtain rfl := List.mem_singleton.1 hf
      have hd : t.purpose = .data := hd
      simp [hsent, Station.frame, hd]
  have hanswered : ∀ f ∈ fs ++ [n.world.frame t], f.purpose = .ack →
      (∃ g ∈ n'.world.handed, g.asks = true ∧ g.number = f.number) ∧
        f.number ≤ n'.world.answering ∧
        (n'.pendingAck.isSome → f.number < n'.world.answering) := by
    intro f hf hack
    rw [hhanded, hanswering]
    rcases List.mem_append.1 hf with hf | hf
    · obtain ⟨hasked, hle, hlt⟩ := h.answered f hf hack
      exact ⟨hasked, hle, fun hsome => hlt ((hpending hsome).2 ▸ hsome)⟩
    · obtain rfl := List.mem_singleton.1 hf
      have hack : t.purpose = .ack := hack
      have hnumber : (n.world.frame t).number = n.world.answering := by
        simp only [Station.frame, hack]
      obtain ⟨ack, hsome⟩ := Option.isSome_iff_exists.1 (ha hack)
      obtain ⟨-, -, g, hg, hasks⟩ := h.owed ack hsome
      rw [hnumber]
      refine ⟨Station.exists_answering hg hasks, Nat.le_refl _, ?_⟩
      intro hsome
      exact absurd hack (hpending hsome).1
  have howed : ∀ ack, n'.pendingAck = some ack → ack.header.control = true ∧
      ack.header.wantsAck = false ∧ ∃ g ∈ n'.world.handed, g.asks = true := by
    intro ack hack
    rw [hhanded]
    exact h.owed ack ((hpending (Option.isSome_of_eq_some hack)).2 ▸ hack)
  constructor
  · refine ⟨hs, ?_, horderly, hrecorded, fun p hp => h.queued p (hq p hp), hl, howed, hanswered⟩
    rw [hhanded, hincoming]
    exact h.inbound
  · rw [hw]
    rfl
  · rw [hhanded, hincoming]
  · exact ⟨[], hincoming⟩
  · exact hprefix.length_le
  · intro g hg hd
    obtain rfl := List.mem_singleton.1 hg
    have hd : t.purpose = .data := hd
    simp [Station.frame, hd]
  · intro j hj
    refine ⟨⟨?_, ?_⟩, ?_⟩
    · rw [hincoming]
      exact hj.incoming
    · intro hsome
      rw [hanswering]
      exact hj.owing ((hpending hsome).2 ▸ hsome)
    · intro g hg hack
      obtain rfl := List.mem_singleton.1 hg
      have hack : t.purpose = .ack := hack
      simp only [Station.frame, hack]
      exact hj.owing (ha hack)

theorem Speaks.hear {n n' : Node (Station E)} {fs rest : List Frame} {f : Frame} {site : E}
    (h : n.Speaks fs) (hs : n'.Sound) (hi : n.world.incoming = f :: rest)
    (hw : n'.world =
      { n.world with site, incoming := rest, handed := n.world.handed ++ [f] })
    (hq : ∀ p ∈ n'.queue.toList, p ∈ n.queue.toList) (hl : n'.awaited <:+ n'.world.sent)
    (hyes : f.asks = true → ∃ ack, n'.pendingAck = some ack ∧ ack.header.control = true ∧
      ack.header.wantsAck = false)
    (hno : f.asks = false → n'.pendingAck = n.pendingAck) : Emits n n' fs [] := by
  have hsent : n'.world.sent = n.world.sent := by rw [hw]
  have hhanded : n'.world.handed = n.world.handed ++ [f] := by rw [hw]
  have hincoming : n'.world.incoming = rest := by rw [hw]
  have hinbound : n'.world.handed ++ n'.world.incoming =
      n.world.handed ++ n.world.incoming := by
    rw [hhanded, hincoming, hi, List.append_assoc]
    rfl
  have hlater (g : Frame) (hg : g ∈ n.world.handed) (hga : g.asks = true) (hfa : f.asks = true) :
      g.number < f.number := by
    have hf : f ∈ n.world.incoming := hi ▸ List.mem_cons_self
    have hgd := Frame.purpose_of_asks hga
    exact h.inbound.lt_of_append hg hf (hgd.trans (Frame.purpose_of_asks hfa).symm)
      (by simp [hgd])
  have hanswered : ∀ g ∈ fs, g.purpose = .ack →
      (∃ e ∈ n'.world.handed, e.asks = true ∧ e.number = g.number) ∧
        g.number ≤ n'.world.answering ∧
        (n'.pendingAck.isSome → g.number < n'.world.answering) := by
    intro g hg hack
    obtain ⟨⟨e, he, hea, heg⟩, hle, hlt⟩ := h.answered g hg hack
    have hasked : ∃ e ∈ n'.world.handed, e.asks = true ∧ e.number = g.number :=
      ⟨e, hhanded ▸ List.mem_append_left _ he, hea, heg⟩
    cases hf : f.asks with
    | true =>
      have hnew := Station.answering_of_asks hhanded hf
      have hgf : g.number < f.number := heg ▸ hlater e he hea hf
      exact ⟨hasked, hnew ▸ Nat.le_of_lt hgf, fun _ => hnew ▸ hgf⟩
    | false =>
      rw [Station.answering_of_other hhanded hf, hno hf]
      exact ⟨hasked, hle, hlt⟩
  have howed : ∀ ack, n'.pendingAck = some ack → ack.header.control = true ∧
      ack.header.wantsAck = false ∧ ∃ g ∈ n'.world.handed, g.asks = true := by
    intro ack hack
    cases hf : f.asks with
    | true =>
      obtain ⟨ack', hack', hc, hw⟩ := hyes hf
      obtain rfl : ack' = ack := Option.some.inj (hack'.symm.trans hack)
      exact ⟨hc, hw, f, hhanded ▸ List.mem_append_right _ (List.mem_singleton_self f), hf⟩
    | false =>
      obtain ⟨hc, hw, g, hg, hga⟩ := h.owed ack (hno hf ▸ hack)
      exact ⟨hc, hw, g, hhanded ▸ List.mem_append_left _ hg, hga⟩
  constructor
  · rw [List.append_nil]
    refine ⟨hs, hinbound ▸ h.inbound, h.orderly, ?_, fun p hp => h.queued p (hq p hp), hl, howed,
      hanswered⟩
    rw [hsent]
    exact h.recorded
  · rw [hw, List.append_nil]
  · exact hinbound
  · rw [hincoming, hi]
    exact List.suffix_cons f rest
  · exact Nat.le_of_eq (by rw [hsent])
  · exact nofun
  · intro j hj
    refine ⟨⟨?_, ?_⟩, nofun⟩
    · intro g hg
      rw [hincoming] at hg
      exact hj.incoming g (hi ▸ List.mem_cons_of_mem f hg)
    · intro hsome
      cases hf : f.asks with
      | true =>
        rw [Station.answering_of_asks hhanded hf]
        exact hj.incoming f (hi ▸ List.mem_cons_self) hf
      | false =>
        rw [Station.answering_of_other hhanded hf]
        exact hj.owing (hno hf ▸ hsome)

theorem Speaks.sublist {n : Node (Station E)} {fs gs : List Frame} (h : n.Speaks fs)
    (hs : gs.Sublist fs) : n.Speaks gs where
  sound := h.sound
  inbound := h.inbound
  orderly := h.orderly.sublist hs
  recorded f hf := h.recorded f (hs.subset hf)
  queued := h.queued
  latest := h.latest
  owed := h.owed
  answered f hf := h.answered f (hs.subset hf)

/-- What has not been handed over does not matter, as long as it is in order. -/
theorem Speaks.with_incoming {n : Node (Station E)} {fs incoming : List Frame} (h : n.Speaks fs)
    (hi : Orderly (n.world.handed ++ incoming)) :
    Speaks { n with world := { n.world with incoming } } fs where
  sound := h.sound.in_world _
  inbound := hi
  orderly := h.orderly
  recorded := h.recorded
  queued := h.queued
  latest := h.latest
  owed := h.owed
  answered := h.answered

theorem Speaks.with_outgoing {n : Node (Station E)} {fs outgoing : List Frame} {site : E}
    (h : n.Speaks fs) : Speaks { n with world := { n.world with site, outgoing } } fs where
  sound := h.sound.in_world _
  inbound := h.inbound
  orderly := h.orderly
  recorded := h.recorded
  queued := h.queued
  latest := h.latest
  owed := h.owed
  answered := h.answered

variable [Medium E] [Clock E] [SignalSource E] {n n' : Node (Station E)} {fs : List Frame}

omit [Clock E] [SignalSource E] in
theorem Speaks.ship {w : Station E} {payload : List UInt8} (h : n.Speaks fs) (hs : n'.Sound)
    (ht : Medium.transmit w ⟨.trace, .fromNode n.identity.node, payload⟩ = .ok n'.world)
    (hw : ∃ site, w = { n.world with site }) (hq : n'.queue = n.queue)
    (hc : n'.sendCount = n.sendCount) (hp : n'.pendingAck = n.pendingAck) :
    ∃ gs, Emits n n' fs gs := by
  obtain ⟨site, hw'⟩ := Station.transmit_eq ht
  obtain ⟨site', rfl⟩ := hw
  refine ⟨_, h.emit hs hw' ?_ (fun p hp => hq ▸ hp) ?_ nofun hp⟩
  · exact ⟨Header.control_fromNode _, Header.wantsAck_fromNode _⟩
  · rw [hw', awaited, hq, hc]
    exact h.latest

omit [Clock E] [SignalSource E] in
theorem Speaks.noting {code : UInt8} (h : n.Speaks fs) (hn : Noting code n n') :
    ∃ gs, Emits n n' fs gs := by
  have hs := h.sound.noting hn
  cases hn with
  | kept => exact ⟨[], h.quiet hs rfl h.queued h.latest rfl⟩
  | held => exact ⟨[], h.quiet hs rfl h.queued h.latest rfl⟩
  | shipped w _ _ ht => exact h.ship hs ht ⟨_, rfl⟩ rfl rfl rfl

omit [SignalSource E] in
theorem Speaks.launch (h : n.Speaks fs) (hl : Launch n n') : ∃ gs, Emits n n' fs gs := by
  have hs := h.sound.launch hl
  cases hl with
  | await p w hp ha hlast ht =>
    obtain ⟨site, rfl⟩ := Station.transmit_eq ht
    have hmem : p ∈ n.queue.toList := List.mem_of_head? hp
    have hc := toNat_sendCount_add_one hlast
    refine ⟨_, h.emit (e := (Clock.now site).2) (t := ⟨.data, p.header, p.payload⟩) hs rfl
      (h.queued p hmem) (fun _ hp => hp) ?_ (by simp) rfl⟩
    obtain ⟨earlier, hsent⟩ := h.latest
    simp only [awaited, hp] at hsent
    show awaited _ <:+ n.world.sent ++ [_]
    simp only [awaited, hp, hc, List.replicate_succ']
    exact ⟨earlier, by rw [← hsent, List.append_assoc]⟩
  | depart p w hp _ ht =>
    obtain ⟨site, rfl⟩ := Station.transmit_eq ht
    have hmem : p ∈ n.queue.toList := List.mem_of_head? hp
    refine ⟨_, h.emit hs rfl ?_ ?_ ?_ (by simp) rfl⟩
    · obtain ⟨hd, hctl⟩ := h.queued p hmem
      exact ⟨(Header.directed_withoutAck _).trans hd, (Header.control_withoutAck _).trans hctl⟩
    · intro q hq
      rw [Queue.toList_pop] at hq
      exact List.mem_of_mem_tail hq
    · exact awaited_suffix_of_zero rfl _

omit [Medium E] [Clock E] [SignalSource E] in
theorem Speaks.accepts {f : Frame} (h : n.Speaks fs) (hf : f ∈ n.world.incoming)
    (ha : f.asks = true) : n.Accepts f.header := by
  have hplain := h.inbound.plain f (List.mem_append_right _ hf)
  obtain ⟨hd, hc⟩ := hplain.data (Frame.purpose_of_asks ha)
  exact ⟨fun hforeign => absurd hforeign.1 (by simp [hd]), hc⟩

theorem Speaks.move (h : n.Speaks fs) (hm : Move n n') : ∃ gs, Emits n n' fs gs := by
  have hs := h.sound.move hm
  cases hm with
  | pause => exact ⟨[], h.quiet hs rfl h.queued h.latest rfl⟩
  | configure => exact ⟨[], h.quiet hs rfl h.queued h.latest rfl⟩
  | note code hn => exact h.noting hn
  | refuse => exact ⟨[], h.quiet hs rfl h.queued h.latest rfl⟩
  | read => exact ⟨[], h.quiet hs rfl h.queued h.latest rfl⟩
  | ship force payload w _ _ ht => exact h.ship hs ht ⟨_, rfl⟩ rfl rfl rfl
  | ignore r w hr hno =>
    obtain ⟨rfl, rfl⟩ | ⟨f, rest, hi, rfl, rfl⟩ := Station.receive_cases hr
    · exact ⟨[], h.quiet hs rfl h.queued h.latest rfl⟩
    · have hasks : f.asks = false := by
        cases ha : f.asks with
        | false => rfl
        | true => exact absurd (h.accepts (hi ▸ List.mem_cons_self) ha) (hno _ rfl).1
      exact ⟨[], h.hear hs hi rfl (fun _ hp => hp) h.latest (by simp [hasks]) fun _ => rfl⟩
  | deliver p w hr ha =>
    obtain ⟨f, rest, hi, rfl, rfl⟩ := Station.receive_frame hr
    have hplain := h.inbound.plain f (List.mem_append_right _ (hi ▸ List.mem_cons_self))
    refine ⟨[], h.hear hs hi rfl (fun _ hp => hp) h.latest ?_ ?_⟩
    · intro hasks
      exact ⟨_, if_pos (hplain.asks_iff.1 hasks), Header.control_ackFor _ _,
        Header.wantsAck_ackFor _ _⟩
    · intro hasks
      exact if_neg fun hw => by simp [hplain.asks_iff.2 hw] at hasks
  | settle p w hr ha =>
    obtain ⟨f, rest, hi, rfl, rfl⟩ := Station.receive_frame hr
    have hasks : f.asks = false := by
      cases hf : f.asks with
      | false => rfl
      | true =>
        have hctl := (h.accepts (hi ▸ List.mem_cons_self) hf).2
        exact absurd ha.2.1 (by simp [show f.packet.header = f.header from rfl, hctl])
    refine ⟨[], h.hear hs hi rfl ?_ ?_ (by simp [hasks]) fun _ => rfl⟩
    · intro q hq
      rw [Queue.toList_pop] at hq
      exact List.mem_of_mem_tail hq
    · exact awaited_suffix_of_zero rfl _
  | answer ack w hack _ ht =>
    obtain ⟨site, hw⟩ := Station.transmit_eq ht
    obtain ⟨hc, hwants, -⟩ := h.owed ack hack
    exact ⟨_, h.emit hs hw ⟨hc, hwants⟩ (fun _ hp => hp) (by subst hw; exact h.latest)
      (fun _ => Option.isSome_of_eq_some hack) rfl⟩
  | first _ _ hl =>
    have hask := h.quiet (m := { n with world := (Medium.canSend n.world).2 })
      (h.sound.in_world _) rfl h.queued h.latest rfl
    obtain ⟨gs, hg⟩ := hask.speaks.launch hl
    exact ⟨_, hask.trans hg⟩
  | again deadline _ _ _ _ h₁ h₂ hl =>
    have hask := h.quiet (m := { n with world := (Medium.canSend (Clock.now n.world).2).2 })
      (h.sound.in_world _) rfl h.queued h.latest rfl
    obtain ⟨gs₁, hg₁⟩ := hask.speaks.noting h₁
    obtain ⟨gs₂, hg₂⟩ := hg₁.speaks.noting h₂
    obtain ⟨gs₃, hg₃⟩ := hg₂.speaks.launch hl
    exact ⟨_, hask.trans (hg₁.trans (hg₂.trans hg₃))⟩

theorem Speaks.moves (h : n.Speaks fs) (hm : Moves n n') : ∃ gs, Emits n n' fs gs := by
  induction hm with
  | refl => exact ⟨[], h.quiet h.sound rfl h.queued h.latest rfl⟩
  | tail _ hm ih =>
    obtain ⟨gs, hg⟩ := ih
    obtain ⟨hs, hh⟩ := hg.speaks.move hm
    exact ⟨gs ++ hs, hg.trans hh⟩

/-- A command that puts packets into the queue only under the node's own name. -/
def Command.Plain : Command → Prop
  | .sendRaw _ _ => False
  | _ => True

instance : DecidablePred Command.Plain
  | .sendRaw _ _ => .isFalse id
  | .allocate _ | .send _ _ | .broadcast _ | .poll | .flush _ | .shipTrace _ | .initRadio _ =>
    .isTrue trivial

omit [Medium E] [Clock E] [SignalSource E] in
theorem Command.Plain.offer {c : Command} {header : Header} {length : UInt8} (hc : c.Plain)
    (ho : c.offer? n = some (header, length)) :
    header.directed = false ∧ header.control = false := by
  cases c with
  | send length ack =>
    obtain ⟨rfl, -⟩ : _ ∧ _ := by simpa [Command.offer?] using ho
    exact ⟨(Header.directed_withAck _ _).trans (Header.directed_fromNode _),
      (Header.control_withAck _ _).trans (Header.control_fromNode _)⟩
  | broadcast length =>
    obtain ⟨rfl, -⟩ : _ ∧ _ := by simpa [Command.offer?] using ho
    exact ⟨Header.directed_fromNode _, Header.control_fromNode _⟩
  | sendRaw => exact hc.elim
  | _ => simp [Command.offer?] at ho

omit [Medium E] [Clock E] [SignalSource E] in
theorem Speaks.enters {c : Command} {ps : List Packet} (h : n.Speaks fs) (hc : c.Plain)
    (he : Enters c n ps n') : Emits n n' fs [] := by
  have hs := h.sound.enters he
  cases he with
  | nothing => exact h.quiet hs rfl h.queued h.latest rfl
  | fill change =>
    refine h.quiet hs rfl ?_ ?_ rfl
    · rw [Queue.toList_fill]
      exact h.queued
    · simp only [awaited, Queue.head?, Queue.toList_fill]
      exact h.latest
  | packet header length buffer q ho _ _ _ ht =>
    refine h.quiet hs rfl ?_ ?_ rfl
    · intro p hp
      rw [ht, List.mem_append, List.mem_singleton] at hp
      rcases hp with hp | rfl
      · exact h.queued p hp
      · exact hc.offer ho
    · rcases h.sound.awaiting with hz | ⟨p, hp, -, -⟩
      · exact awaited_suffix_of_zero (n := { n with queue := q }) hz _
      · have hlatest := h.latest
        simp only [awaited, hp, Queue.head?_of_append hp ht] at hlatest ⊢
        exact hlatest

theorem Speaks.perform {c : Command} {a : Answer} (h : n.Speaks fs) (hc : c.Plain)
    (hr : (perform c).run n = .ok (a, n')) : ∃ gs, Emits n n' fs gs := by
  obtain ⟨m, he, hm⟩ := (perform_outcome c h.sound.count_zero).of_run_eq hr
  have henters := h.enters hc he
  obtain ⟨gs, hg⟩ := henters.speaks.moves hm
  exact ⟨_, henters.trans hg⟩

end Node

end StarNet
