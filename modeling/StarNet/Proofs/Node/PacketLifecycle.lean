import StarNet.Proofs.Node.Deadline

/-!
The life of a packet. The data transmissions of a run are one block for each packet that entered
the queue, in the order of entry. A block is the beginning of the packet's attempts; it stops
short of the last attempt only when an acknowledgement comes in, or because the packet is still
queued.
-/
namespace StarNet.Node

/-- All transmissions a packet can have. The last one asks for no acknowledgement; a packet that
never asked for one has a single attempt. -/
def attempts (maxSends : UInt8) (p : Packet) : List Transmission :=
  if p.header.wantsAck then
    List.replicate (max 1 maxSends.toNat - 1) ⟨.data, p.header, p.payload⟩ ++
      [⟨.data, p.header.withoutAck, p.payload⟩]
  else [⟨.data, p.header, p.payload⟩]

def Acknowledges (own : Identity) (h : Header) : Prop :=
  h.control = true ∧ h.wantsAck = false ∧ h.node = own.node.number

/-- How a packet left the queue, `prior` being the data transmissions of the packets before it:
after its last attempt, or earlier, because an acknowledgement came in between its last
transmission and the next packet's first. -/
inductive Finished (own : Identity) (maxSends : UInt8) (log : List Event)
    (prior : List Transmission) (p : Packet) (block : List Transmission) : Prop where
  | exhausted : block = attempts maxSends p → Finished own maxSends log prior p block
  | settled (before after : List Event) (q : Packet) :
      p.header.wantsAck = true → block <+: attempts maxSends p → block ≠ [] →
      block ≠ attempts maxSends p → log = before ++ .heard (.frame q) :: after →
      Acknowledges own q.header → dataSent before = prior ++ block →
      Finished own maxSends log prior p block

theorem length_attempts (maxSends : UInt8) (p : Packet) :
    (attempts maxSends p).length = if p.header.wantsAck then max 1 maxSends.toNat else 1 := by
  unfold attempts
  split
  · simp only [List.length_append, List.length_replicate, List.length_singleton]
    omega
  · rfl

theorem take_attempts_succ {maxSends : UInt8} {p : Packet} {k : Nat}
    (ha : p.header.wantsAck = true) (hk : k + 1 < maxSends.toNat) :
    (attempts maxSends p).take (k + 1) =
      (attempts maxSends p).take k ++ [⟨.data, p.header, p.payload⟩] := by
  have hlen : k < max 1 maxSends.toNat - 1 := by omega
  simp only [attempts, ha, if_true]
  rw [List.take_append_of_le_length (by simp; omega),
    List.take_append_of_le_length (by simp; omega), List.take_replicate, List.take_replicate,
    Nat.min_eq_left (by omega), Nat.min_eq_left (by omega), List.replicate_succ']

theorem take_attempts_last {maxSends : UInt8} {p : Packet} {k : Nat}
    (hk : if p.header.wantsAck then k + 1 = max 1 maxSends.toNat else k = 0) :
    (attempts maxSends p).take k ++ [⟨.data, p.header.withoutAck, p.payload⟩] =
      attempts maxSends p := by
  unfold attempts
  split at hk <;> rename_i ha
  · rw [if_pos ha, List.take_append_of_le_length (by simp; omega), List.take_replicate,
      Nat.min_eq_left (by omega), show k = max 1 maxSends.toNat - 1 by omega]
  · rw [if_neg ha, hk, Header.withoutAck_of_wantsAck_eq_false (by simpa using ha)]
    rfl

variable {W : Type}

/-- The transmissions that the head packet has had so far. -/
def current (n : Node (Recorded W)) : List Transmission :=
  match n.queue.head? with
  | some p => (attempts n.settings.maxSends p).take n.sendCount.toNat
  | none => []

theorem current_of_zero {n : Node (Recorded W)} (h : n.sendCount = 0) : n.current = [] := by
  unfold current
  split <;> simp [h]

/-- Departed packets with their blocks account for all that was sent before the head packet. -/
structure Ledger (past : List (Packet × List Transmission)) (ps : List Packet)
    (n : Node (Recorded W)) : Prop where
  packets : ps = past.map Prod.fst ++ n.queue.toList
  sent : dataSent n.world.log = (past.map Prod.snd).flatten ++ n.current
  finished : ∀ i p b, past[i]? = some (p, b) →
    Finished n.identity n.settings.maxSends n.world.log ((past.take i).map Prod.snd).flatten p b

/-- An event that belongs to no packet: no transmission of one, no frame and no look at the
clock. -/
def Event.Apart : Event → Prop
  | .sent t => t.purpose ≠ .data
  | .heard _ | .read _ => False
  | _ => True

theorem dataSent_apart {es : List Event} (h : ∀ e ∈ es, e.Apart) : dataSent es = [] := by
  refine List.filterMap_eq_nil_iff.2 fun e he => ?_
  have hapart := h e he
  cases e with
  | sent t => exact if_neg hapart
  | _ => rfl

def Quietly (n n' : Node (Recorded W)) : Prop :=
  ∃ es, n'.world.log = n.world.log ++ es ∧ dataSent es = []

theorem Quietly.trans {n m k : Node (Recorded W)} (h : Quietly n m) (h' : Quietly m k) :
    Quietly n k := by
  obtain ⟨es, hl, hd⟩ := h
  obtain ⟨es', hl', hd'⟩ := h'
  exact ⟨es ++ es', by rw [hl', hl, List.append_assoc], by rw [dataSent_append, hd, hd']; rfl⟩

theorem Finished.append {own : Identity} {maxSends : UInt8} {log : List Event}
    {prior : List Transmission} {p : Packet} {b : List Transmission}
    (h : Finished own maxSends log prior p b) (es : List Event) :
    Finished own maxSends (log ++ es) prior p b := by
  cases h with
  | exhausted h => exact .exhausted h
  | settled before after q ha hp hne hnf hl hq hd =>
    exact .settled before (after ++ es) q ha hp hne hnf (by simp [hl]) hq hd

theorem Ledger.frame {past : List (Packet × List Transmission)} {ps : List Packet}
    {n n' : Node (Recorded W)} (h : Ledger past ps n) (hl : Quietly n n')
    (hq : n'.queue.toList = n.queue.toList) (hc : n'.sendCount = n.sendCount)
    (hs : n'.settings = n.settings) (hi : n'.identity = n.identity) : Ledger past ps n' := by
  obtain ⟨es, hl, hd⟩ := hl
  have hcur : n'.current = n.current := by simp only [current, Queue.head?, hq, hc, hs]
  refine ⟨hq ▸ h.packets, ?_, ?_⟩
  · rw [hl, hcur, ← h.sent, dataSent_append, hd, List.append_nil]
  · intro i p b hb
    rw [hl, hs, hi]
    exact (h.finished i p b hb).append es

theorem Ledger.leave {past : List (Packet × List Transmission)} {ps : List Packet}
    {n n' : Node (Recorded W)} {p : Packet} {es : List Event} (last : List Transmission)
    (h : Ledger past ps n) (hp : n.queue.head? = some p) (hq : n'.queue = n.queue.pop)
    (hc : n'.sendCount = 0) (hs : n'.settings = n.settings) (hi : n'.identity = n.identity)
    (hl : n'.world.log = n.world.log ++ es) (hd : dataSent es = last)
    (hf : Finished n.identity n.settings.maxSends n'.world.log (past.map Prod.snd).flatten p
      (n.current ++ last)) :
    Ledger (past ++ [(p, n.current ++ last)]) ps n' := by
  have hcur := current_of_zero hc
  refine ⟨?_, ?_, ?_⟩
  · rw [hq, Queue.toList_pop, h.packets, Queue.toList_of_head hp]
    simp
  · rw [hl, hcur, dataSent_append, hd, h.sent]
    simp
  · intro i q b hb
    rw [hs, hi]
    by_cases hlt : i < past.length
    · rw [List.getElem?_append_left hlt] at hb
      rw [List.take_append_of_le_length (Nat.le_of_lt hlt), hl]
      exact (h.finished i q b hb).append es
    · have he : i = past.length := by
        have := (List.getElem?_eq_some_iff.1 hb).1
        simp at this
        omega
      subst he
      simp at hb
      obtain ⟨rfl, rfl⟩ := hb
      simpa using hf

variable [Medium W] [Clock W] [SignalSource W]

omit [Clock W] [SignalSource W] in
theorem Noting.apart {n n' : Node (Recorded W)} {code : UInt8} (h : Noting code n n') :
    ∃ es, n'.world.log = n.world.log ++ es ∧ ∀ e ∈ es, e.Apart := by
  cases h with
  | kept => exact ⟨[.noted code], Recorded.log_noted code, by simp [Event.Apart]⟩
  | held _ hf =>
    refine ⟨[.noted code, .asked false], ?_, by simp [Event.Apart]⟩
    rw [Recorded.log_canSend, hf, Recorded.log_noted, List.append_assoc]
    rfl
  | shipped w _ hf ht =>
    have hlog := Recorded.log_transmit ht
    rw [Recorded.log_canSend, hf, Recorded.log_noted, List.append_assoc, List.append_assoc] at hlog
    exact ⟨_, hlog, by simp [Event.Apart]⟩

omit [Clock W] [SignalSource W] in
theorem Remarks.apart {n n' : Node (Recorded W)} (h : Remarks n n') :
    ∃ es, n'.world.log = n.world.log ++ es ∧ ∀ e ∈ es, e.Apart := by
  induction h with
  | refl => exact ⟨[], (List.append_nil _).symm, nofun⟩
  | tail _ hn ih =>
    obtain ⟨code, hn⟩ := hn
    obtain ⟨es, hlog, hes⟩ := ih
    obtain ⟨es', hlog', hes'⟩ := hn.apart
    exact ⟨es ++ es', by rw [hlog', hlog, List.append_assoc], List.forall_mem_append.2 ⟨hes, hes'⟩⟩

omit [Clock W] [SignalSource W] in
theorem Noting.quietly {n n' : Node (Recorded W)} {code : UInt8} (h : Noting code n n') :
    Quietly n n' := by
  obtain ⟨es, hlog, hes⟩ := h.apart
  exact ⟨es, hlog, dataSent_apart hes⟩

omit [Clock W] [SignalSource W] in
theorem Ledger.noting {past : List (Packet × List Transmission)} {ps : List Packet}
    {n n' : Node (Recorded W)} {code : UInt8} (h : Ledger past ps n) (hno : Noting code n n') :
    Ledger past ps n' := by
  have hl := hno.quietly
  obtain ⟨w, t, rfl⟩ := hno.noted
  exact h.frame hl rfl rfl rfl rfl

omit [SignalSource W] in
theorem Ledger.launch {past : List (Packet × List Transmission)} {ps : List Packet}
    {n n' : Node (Recorded W)} (hn : n.Sound) (h : Ledger past ps n) (hl : Launch n n') :
    ∃ past', Ledger past' ps n' := by
  cases hl with
  | await p w hp ha hs ht =>
    have hlog : (Clock.now w).2.log = n.world.log ++
        [.sent ⟨.data, p.header, p.payload⟩, .read (Clock.now w).1] := by
      simp [Recorded.log_transmit ht]
    have hk := lt_maxSends_of_lastSend hs
    have hc := toNat_sendCount_add_one hs
    refine ⟨past, h.packets, ?_, ?_⟩
    · rw [hlog, dataSent_append, h.sent]
      simp only [current, hp, hc, take_attempts_succ ha hk, List.append_assoc]
      rfl
    · intro i q b hb
      rw [hlog]
      exact (h.finished i q b hb).append _
  | depart p w hp hlast ht =>
    have hk : if p.header.wantsAck then
        n.sendCount.toNat + 1 = max 1 n.settings.maxSends.toNat else n.sendCount.toNat = 0 := by
      rcases hn.awaiting with hz | ⟨q, hq, ha, hlt⟩
      · split <;> rename_i ha
        · have := hlast ha
          simp [lastSend, hz] at this ⊢
          omega
        · simp [hz]
      · obtain rfl : p = q := Option.some.inj (hp.symm.trans hq)
        have := hlast ha
        simp [lastSend, ha] at this ⊢
        omega
    have hcur : n.current = (attempts n.settings.maxSends p).take n.sendCount.toNat := by
      simp only [current, hp]
    refine ⟨_, h.leave [⟨.data, p.header.withoutAck, p.payload⟩] hp rfl rfl rfl rfl
      (Recorded.log_transmit ht) rfl (.exhausted ?_)⟩
    rw [hcur, take_attempts_last hk]

omit [Medium W] [Clock W] [SignalSource W] in
theorem Ledger.settle {past : List (Packet × List Transmission)} {ps : List Packet}
    {n n' : Node (Recorded W)} {p : Packet} {es : List Event} (hn : n.Sound)
    (h : Ledger past ps n) (ha : n.Settles p.header) (hq : n'.queue = n.queue.pop)
    (hc : n'.sendCount = 0) (hs : n'.settings = n.settings) (hi : n'.identity = n.identity)
    (hl : n'.world.log = n.world.log ++ .heard (.frame p) :: es) (hd : dataSent es = []) :
    ∃ past', Ledger past' ps n' := by
  obtain ⟨-, hctl, hack, hnode, -, hpos⟩ := ha
  rcases hn.awaiting with hz | ⟨q, hq', hwants, hlt⟩
  · exact absurd hpos (by simp [hz])
  have hpos : 0 < n.sendCount.toNat := hpos
  have hcur : n.current = (attempts n.settings.maxSends q).take n.sendCount.toNat := by
    simp only [current, hq']
  have hlen : (attempts n.settings.maxSends q).length = max 1 n.settings.maxSends.toNat := by
    rw [length_attempts, if_pos hwants]
  refine ⟨_, h.leave [] hq' hq hc hs hi hl hd ?_⟩
  rw [List.append_nil, hcur]
  refine .settled n.world.log es p hwants (List.take_prefix ..) ?_ ?_ hl ⟨hctl, hack, hnode⟩ ?_
  · intro he
    have := congrArg List.length he
    simp [hlen] at this
    omega
  · intro he
    have := congrArg List.length he
    simp [hlen] at this
    omega
  · rw [h.sent, hcur]

theorem Ledger.move {past : List (Packet × List Transmission)} {ps : List Packet}
    {n n' : Node (Recorded W)} (hn : n.Sound) (h : Ledger past ps n) (hm : Move n n') :
    ∃ past', Ledger past' ps n' := by
  have quiet {k : Node (Recorded W)} (es : List Event) (hl : k.world.log = n.world.log ++ es)
      (hd : dataSent es = []) (hq : k.queue = n.queue) (hc : k.sendCount = n.sendCount)
      (hs : k.settings = n.settings) (hi : k.identity = n.identity) : Ledger past ps k :=
    h.frame ⟨es, hl, hd⟩ (by rw [hq]) hc hs hi
  cases hm with
  | pause => exact ⟨past, quiet [] (by simp) rfl rfl rfl rfl rfl⟩
  | configure mode => exact ⟨past, quiet _ (Recorded.log_configure ..) rfl rfl rfl rfl rfl⟩
  | note code hno => exact ⟨past, h.noting hno⟩
  | refuse => exact ⟨past, quiet _ Recorded.log_canSend rfl rfl rfl rfl rfl⟩
  | read => exact ⟨past, quiet _ Recorded.log_now rfl rfl rfl rfl rfl⟩
  | ship force payload w _ _ ht =>
    have hlog := Recorded.log_transmit ht
    rw [Recorded.log_canSend, List.append_assoc] at hlog
    exact ⟨past, quiet _ hlog rfl rfl rfl rfl rfl⟩
  | ignore r w hr => exact ⟨past, quiet _ (Recorded.log_receive hr) rfl rfl rfl rfl rfl⟩
  | deliver p w hr =>
    have hlog := Recorded.log_sample (r := w)
    rw [Recorded.log_receive hr, List.append_assoc] at hlog
    exact ⟨past, quiet _ hlog rfl rfl rfl rfl rfl⟩
  | settle p w hr ha =>
    have hlog := Recorded.log_sample (r := w)
    rw [Recorded.log_receive hr, List.append_assoc] at hlog
    exact h.settle hn ha rfl rfl rfl rfl hlog rfl
  | answer ack w _ _ ht =>
    have hlog := Recorded.log_transmit ht
    rw [Recorded.log_canSend, List.append_assoc] at hlog
    exact ⟨past, quiet _ hlog rfl rfl rfl rfl rfl⟩
  | first _ _ hl =>
    have h := quiet (k := { n with world := (Medium.canSend n.world).2 }) _ Recorded.log_canSend
      rfl rfl rfl rfl rfl
    exact h.launch (hn.in_world _) hl
  | again deadline _ _ _ _ h₁ h₂ hl =>
    have hlog := Recorded.log_canSend (r := (Clock.now n.world).2)
    rw [Recorded.log_now, List.append_assoc] at hlog
    have h := quiet (k := { n with world := (Medium.canSend (Clock.now n.world).2).2 }) _ hlog
      rfl rfl rfl rfl rfl
    exact ((h.noting h₁).noting h₂).launch (((hn.in_world _).noting h₁).noting h₂) hl

omit [Medium W] [Clock W] [SignalSource W] in
theorem Ledger.enters {past : List (Packet × List Transmission)} {ps qs : List Packet}
    {n n' : Node (Recorded W)} {c : Command} (hn : n.Sound) (h : Ledger past ps n)
    (he : Enters c n qs n') : Ledger past (ps ++ qs) n' := by
  cases he with
  | nothing => rwa [List.append_nil]
  | fill =>
    rw [List.append_nil]
    exact h.frame ⟨[], (List.append_nil _).symm, rfl⟩ (Queue.toList_fill ..) rfl rfl rfl
  | packet header length buffer q _ _ _ _ ht =>
    have hcur : current { n with queue := q } = n.current := by
      rcases hn.awaiting with hz | ⟨p, hp, -, -⟩
      · exact (current_of_zero (n := { n with queue := q }) hz).trans (current_of_zero hz).symm
      · simp only [current, hp, Queue.head?_of_append hp ht]
    refine ⟨?_, hcur ▸ h.sent, h.finished⟩
    rw [h.packets, ht, List.append_assoc]

/-- In every run the data transmissions are one block for each packet that entered the queue, in
the order of entry, and nothing but the medium breaks a command off. -/
theorem Execution.packet_lifecycle {w : W} {identity : Identity} {settings : Settings}
    {capacity : Nat} {turns : List (Turn W)} {n : Node (Recorded W)}
    (run : Execution (startRecorded w identity settings capacity) turns n) :
    n.identity = identity ∧ n.settings = settings ∧ (∃ past, Ledger past (entered turns) n) ∧
      (ClockInRange W settings.retryInterval → ∀ c f, (perform c).run n = .error f →
        MediumFails W f) := by
  have hs : (startRecorded w identity settings capacity).Sound := .start ..
  obtain ⟨hi, hset⟩ := run.steady hs
  refine ⟨hi, hset, ?_, ?_⟩
  · refine run.keeps (I := fun ps n => ∃ past, Ledger past ps n) hs ⟨[], rfl, rfl, nofun⟩ ?_ ?_ ?_
    · exact fun hn ⟨past, h⟩ he => ⟨past, h.enters hn he⟩
    · exact fun hn ⟨past, h⟩ hm => h.move hn hm
    · exact fun _ ⟨past, h⟩ => ⟨past, h.packets, h.sent, h.finished⟩
  · intro hclock c f hf
    have htime := run.time_on_record hs (.of_zero rfl)
    rcases htime.perform_error (run.sound hs) hf with hf | ⟨-, -, _, _, -, -, w, -, hlate⟩
    · exact hf
    · rw [hset] at hlate
      exact absurd (hclock w) (Nat.not_lt.2 hlate)

def answeredPacket : List (Happening Bench.World) :=
  [.command (.send 1 true), .command (.broadcast 0), .drift (.scripted 200000 {}), .command .poll,
    .drift (.scripted 250000 { inbound := [.frame { header := ⟨0x41⟩ }] }), .command .poll]

theorem packet_lifecycle_of_answered_packet : ∃ r,
    play (benchStart { maxSends := 3 }) answeredPacket = some r ∧
      (entered r.1).map (·.payload) = [[0], []] ∧
      dataSent r.2.world.log =
        [⟨.data, ⟨0x21⟩, [0]⟩, ⟨.data, ⟨0x21⟩, [0]⟩, ⟨.data, ⟨0x01⟩, []⟩] ∧
      ∃ past, Ledger past (entered r.1) r.2 := by
  have hrun : (play (benchStart { maxSends := 3 }) answeredPacket).any
      (fun r => (entered r.1).map (·.payload) = [[0], []] ∧ dataSent r.2.world.log =
        [⟨.data, ⟨0x21⟩, [0]⟩, ⟨.data, ⟨0x21⟩, [0]⟩, ⟨.data, ⟨0x01⟩, []⟩]) = true := by
    decide +kernel
  obtain ⟨r, hr, hd⟩ := (Option.any_eq_true ..).1 hrun
  obtain ⟨hpackets, hsent⟩ := of_decide_eq_true hd
  exact ⟨r, hr, hpackets, hsent, (Execution.of_play hr).packet_lifecycle.2.2.1⟩

end StarNet.Node
