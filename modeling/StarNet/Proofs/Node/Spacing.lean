import StarNet.Proofs.Node.MediumContract
import StarNet.Proofs.Node.PacketLifecycle

/-!
The time between two transmissions of a packet. The record alone tells which packet a transmission
is of: a packet leaves the queue when it is sent for the last time or acknowledged, and the next one
takes its place. Between two transmissions of one packet the clock is read at least twice, right
after the first and before the second, and the retry interval lies between these readings. The
first transmission of a packet waits for no reading at all.
-/
namespace StarNet.Node

instance (own : Identity) (h : Header) : Decidable (Acknowledges own h) :=
  inferInstanceAs (Decidable (_ ∧ _))

/-- How many packets have left the queue, and how often the next one was sent. -/
structure Standing where
  left : Nat := 0
  sends : Nat := 0
  deriving DecidableEq

def Standing.note (own : Identity) (s : Standing) : Event → Standing
  | .sent t =>
    if t.purpose = .data then
      if t.header.wantsAck then { s with sends := s.sends + 1 } else { left := s.left + 1 }
    else s
  | .heard (.frame q) =>
    if 0 < s.sends ∧ Acknowledges own q.header then { left := s.left + 1 } else s
  | _ => s

def standing (own : Identity) (log : List Event) : Standing := log.foldl (Standing.note own) {}

theorem standing_append (own : Identity) (log es : List Event) :
    standing own (log ++ es) = es.foldl (Standing.note own) (standing own log) :=
  List.foldl_append

theorem standing_concat (own : Identity) (log : List Event) (e : Event) :
    standing own (log ++ [e]) = (standing own log).note own e := standing_append own log [e]

theorem Standing.note_apart {own : Identity} {s : Standing} {e : Event} (h : e.Apart) :
    s.note own e = s := by
  cases e with
  | sent t => exact if_neg h
  | heard r => exact h.elim
  | _ => rfl

theorem standing_apart {own : Identity} {log es : List Event} (h : ∀ e ∈ es, e.Apart) :
    standing own (log ++ es) = standing own log := by
  induction es generalizing log with
  | nil => rw [List.append_nil]
  | cons e es ih =>
    rw [List.append_cons, ih fun e he => h e (List.mem_cons_of_mem _ he), standing_concat,
      Standing.note_apart (h e List.mem_cons_self)]

/-- A transmission is of the packet that is next by then, under its header or without the request
for an acknowledgement. -/
def Belongs (own : Identity) (ps : List Packet) (before : List Event) : Event → Prop
  | .sent t => t.purpose = .data → ∃ p, ps[(standing own before).left]? = some p ∧
      t.payload = p.payload ∧ (t.header = p.header ∨ t.header = p.header.withoutAck)
  | _ => True

/-- The clock was read right after a packet was sent, and then until the interval had passed. Since
the last reading nothing but a question to the medium, and notes, came in between. -/
def Waited (interval : Ticks) (before : List Event) : Prop :=
  ∃ first t time mid time' notes,
    before = first ++ .sent t :: .read time :: (mid ++ .read time' :: .asked true :: notes) ∧
    t.purpose = .data ∧ dataSent (mid ++ .read time' :: .asked true :: notes) = [] ∧
    (∀ e ∈ notes, e.Apart) ∧ time.toNat + interval.toNat ≤ time'.toNat

/-- A packet that was sent before is not sent again until the interval has passed. -/
def Spaced (own : Identity) (interval : Ticks) (before : List Event) : Event → Prop
  | .sent t => t.purpose = .data → 0 < (standing own before).sends → Waited interval before
  | _ => True

theorem throughout_nil {rule : List Event → Event → Prop} : Throughout rule [] := by
  intro i e hi
  rw [List.getElem?_nil] at hi
  cases hi

theorem throughout_append {rule : List Event → Event → Prop} {log es : List Event}
    (hrule : ∀ before e, e.data? = none → rule before e) (h : Throughout rule log)
    (hes : dataSent es = []) : Throughout rule (log ++ es) := by
  induction es generalizing log with
  | nil => rwa [List.append_nil]
  | cons e es ih =>
    rw [dataSent, List.filterMap_eq_nil_iff] at hes
    rw [List.append_cons]
    refine ih (throughout_concat.2 ⟨h, hrule log e (hes e List.mem_cons_self)⟩) ?_
    exact List.filterMap_eq_nil_iff.2 fun e he => hes e (List.mem_cons_of_mem _ he)

theorem purpose_of_data_none {t : Transmission} (h : (Event.sent t).data? = none) :
    t.purpose ≠ .data := by
  intro hdata
  rw [Event.data?, if_pos hdata] at h
  cases h

theorem belongs_of_data_none {own : Identity} {ps : List Packet} (before : List Event) (e : Event)
    (h : e.data? = none) : Belongs own ps before e := by
  cases e with
  | sent t => exact fun hdata => absurd hdata (purpose_of_data_none h)
  | _ => trivial

theorem spaced_of_data_none {own : Identity} {interval : Ticks} (before : List Event) (e : Event)
    (h : e.data? = none) : Spaced own interval before e := by
  cases e with
  | sent t => exact fun hdata => absurd hdata (purpose_of_data_none h)
  | _ => trivial

theorem Belongs.append {own : Identity} {ps : List Packet} {before : List Event} {e : Event}
    (h : Belongs own ps before e) (qs : List Packet) : Belongs own (ps ++ qs) before e := by
  cases e with
  | sent t =>
    intro hdata
    obtain ⟨p, hp, hsent⟩ := h hdata
    refine ⟨p, ?_, hsent⟩
    rw [List.getElem?_append_left (List.getElem?_eq_some_iff.1 hp).1, hp]
  | _ => trivial

theorem Throughout.at_split {rule : List Event → Event → Prop} {before after : List Event}
    {e : Event} (h : Throughout rule (before ++ e :: after)) : rule before e := by
  have hrule := h before.length e (by rw [List.getElem?_append_right (Nat.le_refl _),
    Nat.sub_self, List.getElem?_cons_zero])
  rwa [List.take_left] at hrule

variable {W : Type}

theorem toNat_of_retryTime {n : Node W} {deadline : Ticks} (h : n.retryTime = .ok deadline) :
    deadline.toNat = n.sendTime.toNat + n.settings.retryInterval.toNat := by
  unfold retryTime at h
  split at h
  next hrange =>
    cases h
    rw [UInt64.toNat_add]
    exact Nat.mod_eq_of_lt hrange
  next => cases h

def headFrame (n : Node W) (p : Packet) : Transmission :=
  ⟨.data, if n.lastSend then p.header.withoutAck else p.header, p.payload⟩

theorem headFrame_of_last {n : Node W} {p : Packet}
    (h : p.header.wantsAck = true → n.lastSend = true) :
    n.headFrame p = ⟨.data, p.header.withoutAck, p.payload⟩ := by
  have hheader : (if n.lastSend then p.header.withoutAck else p.header) = p.header.withoutAck := by
    by_cases hs : n.lastSend = true
    · rw [if_pos hs]
    · rw [if_neg hs, Header.withoutAck_of_wantsAck_eq_false]
      exact eq_false_of_ne_true fun ha => hs (h ha)
  rw [headFrame, hheader]

/-- The send time is what the clock was read right after the head packet was last sent. -/
def TimedLast (own : Identity) (n : Node (Recorded W)) : Prop :=
  ∃ first t rest, n.world.log = first ++ .sent t :: .read n.sendTime :: rest ∧
    t.purpose = .data ∧ (standing own first).left = (standing own n.world.log).left ∧
    dataSent rest = []

/-- The record tells which packets are queued and how often the head packet was sent, and when that
was last. -/
structure Retrying (own : Identity) (interval : Ticks) (ps : List Packet)
    (n : Node (Recorded W)) : Prop where
  own_identity : n.identity = own
  own_interval : n.settings.retryInterval = interval
  bound : (standing own n.world.log).left ≤ ps.length
  queued : n.queue.toList = ps.drop (standing own n.world.log).left
  counted : (standing own n.world.log).sends = n.sendCount.toNat
  timed : 0 < n.sendCount → n.TimedLast own
  belongs : Throughout (Belongs own ps) n.world.log
  spaced : Throughout (Spaced own interval) n.world.log

variable {own : Identity} {interval : Ticks} {ps : List Packet} {n n' : Node (Recorded W)}

theorem Retrying.start {w : W} {settings : Settings} {capacity : Nat} :
    Retrying own settings.retryInterval [] (startRecorded w own settings capacity) where
  own_identity := rfl
  own_interval := rfl
  bound := Nat.le_refl 0
  queued := rfl
  counted := rfl
  timed hpos := absurd hpos (Nat.lt_irrefl 0)
  belongs := throughout_nil
  spaced := throughout_nil

theorem Retrying.frame {es : List Event} (h : Retrying own interval ps n)
    (hlog : n'.world.log = n.world.log ++ es)
    (hstanding : standing own (n.world.log ++ es) = standing own n.world.log)
    (hdata : dataSent es = []) (hq : n'.queue.toList = n.queue.toList)
    (hc : n'.sendCount = n.sendCount) (ht : n'.sendTime = n.sendTime)
    (hi : n'.identity = n.identity) (hs : n'.settings = n.settings) :
    Retrying own interval ps n' where
  own_identity := hi.trans h.own_identity
  own_interval := hs ▸ h.own_interval
  bound := by
    rw [hlog, hstanding]
    exact h.bound
  queued := by rw [hq, hlog, hstanding, h.queued]
  counted := by rw [hlog, hstanding, hc, h.counted]
  timed hpos := by
    obtain ⟨first, t, rest, hfirst, hdata', hleft, hrest⟩ := h.timed (hc ▸ hpos)
    refine ⟨first, t, rest ++ es, ?_, hdata', ?_, ?_⟩
    · rw [hlog, ht, hfirst, List.append_assoc]
      rfl
    · rw [hlog, hstanding, hleft]
    · rw [dataSent_append, hrest, hdata]
      rfl
  belongs := hlog ▸ throughout_append belongs_of_data_none h.belongs hdata
  spaced := hlog ▸ throughout_append spaced_of_data_none h.spaced hdata

theorem Retrying.apart {es : List Event} (h : Retrying own interval ps n)
    (hlog : n'.world.log = n.world.log ++ es) (hes : ∀ e ∈ es, e.Apart)
    (hq : n'.queue.toList = n.queue.toList) (hc : n'.sendCount = n.sendCount)
    (ht : n'.sendTime = n.sendTime) (hi : n'.identity = n.identity)
    (hs : n'.settings = n.settings) : Retrying own interval ps n' :=
  h.frame hlog (standing_apart hes) (dataSent_apart hes) hq hc ht hi hs

theorem Retrying.leave {es : List Event} {p : Packet} (h : Retrying own interval ps n)
    (hp : n.queue.head? = some p) (hlog : n'.world.log = n.world.log ++ es)
    (hstanding : standing own (n.world.log ++ es) = { left := (standing own n.world.log).left + 1 })
    (hq : n'.queue = n.queue.pop) (hc : n'.sendCount = 0) (hi : n'.identity = n.identity)
    (hs : n'.settings = n.settings) (belongs : Throughout (Belongs own ps) n'.world.log)
    (spaced : Throughout (Spaced own interval) n'.world.log) :
    Retrying own interval ps n' where
  own_identity := hi.trans h.own_identity
  own_interval := hs ▸ h.own_interval
  bound := by
    have hcons := Queue.toList_of_head hp
    rw [h.queued] at hcons
    have hlength := congrArg List.length hcons
    rw [List.length_drop, List.length_cons] at hlength
    rw [hlog, hstanding]
    dsimp only
    omega
  queued := by rw [hq, Queue.toList_pop, h.queued, hlog, hstanding, List.tail_drop]
  counted := by
    rw [hlog, hstanding, hc]
    rfl
  timed hpos := absurd hpos (by rw [hc]; decide)
  belongs := belongs
  spaced := spaced

theorem Retrying.head (h : Retrying own interval ps n) {p : Packet}
    (hp : n.queue.head? = some p) : ps[(standing own n.world.log).left]? = some p := by
  rw [Queue.head?, h.queued, List.head?_drop] at hp
  exact hp

section Moves

variable [Medium W] [Clock W] [SignalSource W]

omit [Clock W] [SignalSource W] in
theorem Retrying.noting {code : UInt8} (h : Retrying own interval ps n)
    (hn : Noting code n n') : Retrying own interval ps n' := by
  obtain ⟨es, hlog, hes⟩ := hn.apart
  obtain ⟨w, t, rfl⟩ := hn.noted
  exact h.apart hlog hes rfl rfl rfl rfl rfl

omit [SignalSource W] in
theorem Retrying.launch (h : Retrying own interval ps n) (hl : Launch n n')
    (waited : 0 < n.sendCount → Waited interval n.world.log) :
    Retrying own interval ps n' := by
  have hbelongs : ∀ {p : Packet} {header : Header}, n.queue.head? = some p →
      header = p.header ∨ header = p.header.withoutAck →
      Throughout (Belongs own ps) (n.world.log ++ [.sent ⟨.data, header, p.payload⟩]) := by
    intro p header hp hheader
    exact throughout_concat.2 ⟨h.belongs, fun _ => ⟨p, h.head hp, rfl, hheader⟩⟩
  have hspaced : ∀ t, Throughout (Spaced own interval) (n.world.log ++ [.sent t]) := by
    intro t
    refine throughout_concat.2 ⟨h.spaced, fun _ hpos => waited ?_⟩
    rw [h.counted] at hpos
    exact hpos
  cases hl with
  | await p w hp ha hs ht =>
    have hlog : (Clock.now w).2.log =
        n.world.log ++ [.sent ⟨.data, p.header, p.payload⟩] ++ [.read (Clock.now w).1] := by
      rw [Recorded.log_now, Recorded.log_transmit ht]
    have hstanding : standing own (Clock.now w).2.log =
        { standing own n.world.log with sends := (standing own n.world.log).sends + 1 } := by
      rw [hlog, standing_concat, standing_concat]
      simp only [Standing.note, if_true, ha]
    refine ⟨h.own_identity, h.own_interval, ?_, ?_, ?_, ?_, ?_, ?_⟩
    · rw [hstanding]
      exact h.bound
    · rw [hstanding]
      exact h.queued
    · rw [hstanding, toNat_sendCount_add_one hs, h.counted]
    · intro _
      refine ⟨n.world.log, ⟨.data, p.header, p.payload⟩, [], ?_, rfl, ?_, rfl⟩
      · rw [hlog, List.append_assoc]
        rfl
      · rw [hstanding]
    · rw [hlog]
      exact throughout_append belongs_of_data_none (hbelongs hp (.inl rfl)) rfl
    · rw [hlog]
      exact throughout_append spaced_of_data_none (hspaced _) rfl
  | depart p w hp hlast ht =>
    have hlog := Recorded.log_transmit ht
    refine h.leave hp hlog ?_ rfl rfl rfl rfl ?_ ?_
    · rw [standing_concat]
      simp only [Standing.note, if_true, Header.wantsAck_withoutAck, Bool.false_eq_true, if_false]
    · rw [hlog]
      exact hbelongs hp (.inr rfl)
    · rw [hlog]
      exact hspaced _

omit [Medium W] [Clock W] [SignalSource W] in
theorem Retrying.ignored (hn : n.Sound) (h : Retrying own interval ps n) {r : Reception}
    (hno : ∀ p, r = .frame p → ¬ n.Settles p.header) :
    standing own (n.world.log ++ [.heard r]) = standing own n.world.log := by
  rw [standing_concat]
  cases r with
  | frame p =>
    refine if_neg ?_
    rintro ⟨hpos, hcontrol, hack, hnode⟩
    rw [h.counted] at hpos
    have hpos : 0 < n.sendCount := hpos
    have hqueue : n.queue.isEmpty = false := by
      rcases hn.awaiting with hzero | ⟨q, hq, -⟩
      · exact absurd hpos (by simp [hzero])
      · exact Queue.isEmpty_of_head hq
    rw [← h.own_identity] at hnode
    exact hno p rfl ⟨fun hforeign => hforeign.2 hnode, hcontrol, hack, hnode, hqueue, hpos⟩
  | _ => rfl

omit [Medium W] [Clock W] [SignalSource W] in
theorem Retrying.settled (h : Retrying own interval ps n) {p : Packet}
    {es : List Event} (hset : n.Settles p.header)
    (hlog : n'.world.log = n.world.log ++ .heard (.frame p) :: es) (hes : ∀ e ∈ es, e.Apart)
    (hq : n'.queue = n.queue.pop) (hc : n'.sendCount = 0) (hi : n'.identity = n.identity)
    (hs : n'.settings = n.settings) : Retrying own interval ps n' := by
  obtain ⟨-, hcontrol, hack, hnode, hqueue, hpos⟩ := hset
  obtain ⟨q, hhead⟩ := Queue.exists_head hqueue
  have hdata : dataSent (.heard (.frame p) :: es) = [] := by
    rw [dataSent, List.filterMap_cons]
    exact dataSent_apart hes
  refine h.leave hhead hlog ?_ hq hc hi hs ?_ ?_
  · have hsends : 0 < (standing own n.world.log).sends := by
      rw [h.counted]
      exact hpos
    rw [List.append_cons, standing_apart hes, standing_concat]
    exact if_pos ⟨hsends, hcontrol, hack, hnode.trans (by rw [h.own_identity])⟩
  · rw [hlog]
    exact throughout_append belongs_of_data_none h.belongs hdata
  · rw [hlog]
    exact throughout_append spaced_of_data_none h.spaced hdata

omit [Medium W] [Clock W] [SignalSource W] in
theorem Retrying.waited {es : List Event} {time : Ticks} (h : Retrying own interval ps n)
    (hpos : 0 < n.sendCount) {deadline : Ticks} (hd : n.retryTime = .ok deadline)
    (hdue : deadline ≤ time)
    (hlog : n'.world.log = n.world.log ++ .read time :: .asked true :: es)
    (hes : ∀ e ∈ es, e.Apart) : Waited interval n'.world.log := by
  obtain ⟨first, t, rest, hfirst, hdata, -, hrest⟩ := h.timed hpos
  have hasked : ∀ e ∈ .asked true :: es, e.Apart := List.forall_mem_cons.2 ⟨trivial, hes⟩
  refine ⟨first, t, n.sendTime, rest, time, es, ?_, hdata, ?_, hes, ?_⟩
  · rw [hlog, hfirst, List.append_assoc]
    rfl
  · rw [dataSent_append, hrest, dataSent, List.filterMap_cons]
    exact dataSent_apart hasked
  · rw [UInt64.le_iff_toNat_le, toNat_of_retryTime hd, h.own_interval] at hdue
    exact hdue

theorem Retrying.move (hn : n.Sound) (h : Retrying own interval ps n) (hm : Move n n') :
    Retrying own interval ps n' := by
  cases hm with
  | pause => exact h.apart (List.append_nil _).symm nofun rfl rfl rfl rfl rfl
  | configure mode =>
    exact h.apart (Recorded.log_configure ..) (by simp [Event.Apart]) rfl rfl rfl rfl rfl
  | note code hno => exact h.noting hno
  | refuse => exact h.apart Recorded.log_canSend (by simp [Event.Apart]) rfl rfl rfl rfl rfl
  | read =>
    refine h.frame Recorded.log_now ?_ rfl rfl rfl rfl rfl rfl
    rw [standing_concat]
    rfl
  | ship force payload w _ _ ht =>
    have hlog := Recorded.log_transmit ht
    rw [Recorded.log_canSend, List.append_assoc] at hlog
    exact h.apart hlog (by simp [Event.Apart]) rfl rfl rfl rfl rfl
  | ignore r w hr hno =>
    have hstanding := h.ignored hn fun p hp => (hno p hp).2
    exact h.frame (Recorded.log_receive hr) hstanding rfl rfl rfl rfl rfl rfl
  | deliver p w hr ha =>
    have hlog := Recorded.log_sample (r := w)
    rw [Recorded.log_receive hr, List.append_assoc] at hlog
    refine h.frame hlog ?_ rfl rfl rfl rfl rfl rfl
    have hstanding : standing own (n.world.log ++ [.heard (.frame p)]) = standing own n.world.log :=
      h.ignored hn fun q hq hset => by
        cases hq
        exact Bool.false_ne_true (ha.2.symm.trans hset.2.1)
    rw [← List.append_assoc, standing_concat, hstanding]
    rfl
  | settle p w hr hset =>
    have hlog := Recorded.log_sample (r := w)
    rw [Recorded.log_receive hr, List.append_assoc] at hlog
    exact h.settled hset hlog (by simp [Event.Apart]) rfl rfl rfl rfl
  | answer ack w _ _ ht =>
    have hlog := Recorded.log_transmit ht
    rw [Recorded.log_canSend, List.append_assoc] at hlog
    exact h.apart hlog (by simp [Event.Apart]) rfl rfl rfl rfl rfl
  | first hzero _ hl =>
    have h₁ : Retrying own interval ps { n with world := (Medium.canSend n.world).2 } :=
      h.apart Recorded.log_canSend (by simp [Event.Apart]) rfl rfl rfl rfl rfl
    refine h₁.launch hl fun hpos => absurd hpos ?_
    simp [hzero]
  | @again n₁ n₂ _ deadline hpos hd hdue hf h₁ h₂ hl =>
    obtain ⟨es₁, hlog₁, hes₁⟩ := h₁.apart
    obtain ⟨es₂, hlog₂, hes₂⟩ := h₂.apart
    have hlog : n₂.world.log = n.world.log ++ .read (Clock.now n.world).1 ::
        .asked true :: (es₁ ++ es₂) := by
      rw [hlog₂, hlog₁, Recorded.log_canSend, hf, Recorded.log_now]
      simp only [List.append_assoc]
      rfl
    have hes : ∀ e ∈ es₁ ++ es₂, e.Apart := List.forall_mem_append.2 ⟨hes₁, hes₂⟩
    have hwaited : Waited interval n₂.world.log := h.waited hpos hd hdue hlog hes
    have hread : Retrying own interval ps { n with world := (Clock.now n.world).2 } := by
      refine h.frame Recorded.log_now ?_ rfl rfl rfl rfl rfl rfl
      rw [standing_concat]
      rfl
    have hasked : Retrying own interval ps
        { n with world := (Medium.canSend (Clock.now n.world).2).2 } :=
      hread.apart Recorded.log_canSend (by simp [Event.Apart]) rfl rfl rfl rfl rfl
    exact ((hasked.noting h₁).noting h₂).launch hl fun _ => hwaited

theorem Retrying.moves (hn : n.Sound) (h : Retrying own interval ps n) (hm : Moves n n') :
    Retrying own interval ps n' := by
  induction hm with
  | refl => exact h
  | tail hms hm ih => exact ih.move (hn.moves hms) hm

omit [Medium W] [Clock W] [SignalSource W] in
theorem Retrying.enters {qs : List Packet} {c : Command} (h : Retrying own interval ps n)
    (he : Enters c n qs n') : Retrying own interval (ps ++ qs) n' := by
  cases he with
  | nothing => rwa [List.append_nil]
  | fill change =>
    rw [List.append_nil]
    exact h.apart (List.append_nil _).symm nofun (Queue.toList_fill ..) rfl rfl rfl rfl
  | packet header length buffer q _ _ _ _ ht =>
    refine ⟨h.own_identity, h.own_interval, ?_, ?_, h.counted, h.timed, ?_, h.spaced⟩
    · rw [List.length_append]
      exact Nat.le_add_right_of_le h.bound
    · rw [ht, h.queued, List.drop_append_of_le_length h.bound]
    · exact fun i e hi => (h.belongs i e hi).append _

theorem Execution.retrying {n₀ : Node (Recorded W)} {turns : List (Turn W)}
    (run : Execution n₀ turns n) (hs : n₀.Sound) (h : Retrying own interval [] n₀) :
    Retrying own interval (entered turns) n :=
  run.keeps (I := Retrying own interval) hs h (fun _ h he => h.enters he)
    (fun hn h hm => h.move hn hm) fun _ h =>
      ⟨h.own_identity, h.own_interval, h.bound, h.queued, h.counted, h.timed, h.belongs, h.spaced⟩

end Moves

section Transmissions

variable {es first first' rest rest' : List Event} {t t' : Transmission}

theorem foldl_note_of_dataSent (own : Identity) (s : Standing) (h : dataSent es = []) :
    es.foldl (Standing.note own) s = s ∨ s.left < (es.foldl (Standing.note own) s).left := by
  induction es generalizing s with
  | nil => exact .inl rfl
  | cons e es ih =>
    rw [dataSent, List.filterMap_eq_nil_iff] at h
    have hes : dataSent es = [] :=
      List.filterMap_eq_nil_iff.2 fun e he => h e (List.mem_cons_of_mem _ he)
    have hstep : s.note own e = s ∨ s.note own e = { left := s.left + 1 } := by
      have hnone := h e List.mem_cons_self
      cases e with
      | sent t => exact .inl (if_neg (purpose_of_data_none hnone))
      | heard r =>
        cases r with
        | frame q =>
          by_cases hsettled : 0 < s.sends ∧ Acknowledges own q.header
          · exact .inr (if_pos hsettled)
          · exact .inl (if_neg hsettled)
        | _ => exact .inl rfl
      | _ => exact .inl rfl
    rw [List.foldl_cons]
    rcases hstep with hsame | hleft
    · rw [hsame]
      exact ih s hes
    · rw [hleft]
      right
      rcases ih { left := s.left + 1 } hes with hsame | hlt
      · rw [hsame]
        exact Nat.lt_succ_self _
      · exact Nat.lt_of_succ_lt hlt

theorem sends_pos (ht : t.purpose = .data) (hrest : dataSent rest = [])
    (hsame : (standing own first).left = (standing own (first ++ .sent t :: rest)).left) :
    0 < (standing own (first ++ .sent t :: rest)).sends := by
  rw [List.append_cons, standing_append, standing_concat] at hsame ⊢
  by_cases ha : t.header.wantsAck = true
  · have hnote : (standing own first).note own (.sent t) =
        { standing own first with sends := (standing own first).sends + 1 } := by
      simp only [Standing.note, ht, if_true, ha]
    rw [hnote] at hsame ⊢
    rcases foldl_note_of_dataSent own
      { standing own first with sends := (standing own first).sends + 1 } hrest with heq | hlt
    · rw [heq]
      exact Nat.succ_pos _
    · exact absurd hsame (Nat.ne_of_lt hlt)
  · have hnote : (standing own first).note own (.sent t) =
        { left := (standing own first).left + 1 } := by
      simp only [Standing.note, ht, if_true, if_neg ha]
    rw [hnote] at hsame
    rcases foldl_note_of_dataSent own { left := (standing own first).left + 1 } hrest
      with heq | hlt
    · rw [heq] at hsame
      exact absurd hsame (Nat.ne_of_lt (Nat.lt_succ_self _))
    · exact absurd hsame (Nat.ne_of_lt (Nat.lt_of_succ_lt hlt))

theorem eq_of_last_sent (h : first ++ .sent t :: rest = first' ++ .sent t' :: rest')
    (ht : t.purpose = .data) (ht' : t'.purpose = .data) (hrest : dataSent rest = [])
    (hrest' : dataSent rest' = []) : rest = rest' := by
  have later : ∀ {u : Transmission} {xs ys : List Event}, u.purpose = .data →
      dataSent (xs ++ .sent u :: ys) ≠ [] := by
    intro u xs ys hu hnil
    rw [dataSent, List.filterMap_eq_nil_iff] at hnil
    exact purpose_of_data_none (hnil (.sent u) (List.mem_append_right _ List.mem_cons_self)) hu
  rcases List.append_eq_append_iff.1 h with ⟨between, -, hcons⟩ | ⟨between, -, hcons⟩
  · cases between with
    | nil => exact (List.cons.inj hcons).2
    | cons e between =>
      obtain ⟨-, rfl⟩ := List.cons.inj hcons
      exact absurd hrest (later ht')
  · cases between with
    | nil => exact (List.cons.inj hcons).2.symm
    | cons e between =>
      obtain ⟨-, rfl⟩ := List.cons.inj hcons
      exact absurd hrest' (later ht)

end Transmissions

section Runs

variable [Medium W] [Clock W] [SignalSource W]

omit [SignalSource W] in
theorem Launch.sent (hl : Launch n n') : ∃ p es, n.queue.head? = some p ∧
    n'.world.log = n.world.log ++ .sent (n.headFrame p) :: es ∧
      ∀ e ∈ es, ∃ time, e = .read time := by
  cases hl with
  | await p w hp ha hs ht =>
    refine ⟨p, [.read (Clock.now w).1], hp, ?_, ?_⟩
    · simp [Recorded.log_transmit ht, headFrame, hs]
    · intro e he
      exact ⟨_, List.mem_singleton.1 he⟩
  | depart p w hp hlast ht =>
    refine ⟨p, [], hp, ?_, nofun⟩
    rw [Recorded.log_transmit ht, headFrame_of_last hlast]

omit [SignalSource W] in
theorem Starts.first_sent {p : Packet} (h : Starts n n') (hnone : n.pendingAck = none)
    (hp : n.queue.head? = some p) (hzero : n.sendCount = 0)
    (hfree : (Medium.canSend n.world).1 = true) : ∃ es,
      n'.world.log = n.world.log ++ .asked true :: .sent (n.headFrame p) :: es := by
  have hpos : ¬ 0 < n.sendCount := by simp [hzero]
  cases h with
  | unowing _ hr =>
    cases hr with
    | empty hq => exact absurd (Queue.isEmpty_of_head hp) (by simp [hq])
    | held _ _ hf => exact absurd hfree (by simp [hf])
    | first _ _ hf hl =>
      obtain ⟨m, hlaunch, hremarks⟩ := hl
      obtain ⟨q, es, hq, hlog, -⟩ := hlaunch.sent
      obtain rfl : p = q := Option.some.inj (hp.symm.trans hq)
      obtain ⟨es', hlog'⟩ := Recorded.respects_log.errands trivial (.inl trivial) hremarks.errands
      refine ⟨es ++ es', ?_⟩
      rw [← hlog', hlog, Recorded.log_canSend, hf]
      simp only [List.append_assoc]
      rfl
    | early _ _ h => exact absurd h hpos
    | refused _ _ h => exact absurd h hpos
    | again _ _ h => exact absurd h hpos
  | answer ack _ hack => exact absurd hnone (by simp [hack])
  | refused ack hack => exact absurd hnone (by simp [hack])

/-- The transmissions of a run, on any medium and with any settings. The record tells which packet
each of them is of. Between two of one packet the clock is read right after the first, and again
before the second is decided on, at least the retry interval later. And a poll that owes nothing
sends a head packet that was never sent as soon as the medium is free, whatever the time. -/
theorem Execution.retransmissions_spaced {w : W} {identity : Identity} {settings : Settings}
    {capacity : Nat} {turns : List (Turn W)}
    (run : Execution (startRecorded w identity settings capacity) turns n) :
    n.queue.toList = (entered turns).drop (standing identity n.world.log).left ∧
    (∀ before t after, n.world.log = before ++ .sent t :: after → t.purpose = .data →
      ∃ p, (entered turns)[(standing identity before).left]? = some p ∧
        t.payload = p.payload ∧ (t.header = p.header ∨ t.header = p.header.withoutAck)) ∧
    (∀ first t between t' after,
      n.world.log = first ++ .sent t :: (between ++ .sent t' :: after) →
      t.purpose = .data → t'.purpose = .data → dataSent between = [] →
      (standing identity first).left = (standing identity (first ++ .sent t :: between)).left →
      ∃ time mid time' notes,
        between = .read time :: (mid ++ .read time' :: .asked true :: notes) ∧
        (∀ e ∈ notes, e.Apart) ∧
        time.toNat + settings.retryInterval.toNat ≤ time'.toNat) ∧
    ∀ delivered m p, n.enabled = true → intake.run n = .ok (delivered, m) →
      m.pendingAck = none → m.queue.head? = some p →
      (standing identity m.world.log).sends = 0 → (Medium.canSend m.world).1 = true →
      (∀ f, poll.run n = .error f → MediumFails W f) ∧
      ∀ a n', poll.run n = .ok (a, n') → ∃ es,
        n'.world.log = m.world.log ++ .asked true :: .sent (m.headFrame p) :: es := by
  have hs : (startRecorded w identity settings capacity).Sound := .start ..
  have hn : n.Sound := run.sound hs
  have h : Retrying identity settings.retryInterval (entered turns) n := run.retrying hs .start
  refine ⟨h.queued, ?_, ?_, ?_⟩
  · intro before t after hlog hdata
    exact (hlog ▸ h.belongs).at_split hdata
  · intro first t between t' after hlog ht ht' hbetween hsame
    have hlog' : n.world.log = (first ++ .sent t :: between) ++ .sent t' :: after := by
      rw [hlog, List.append_assoc]
      rfl
    obtain ⟨first', u, time, mid, time', notes, hbefore, hu, hrest, hnotes, hinterval⟩ :=
      (hlog' ▸ h.spaced).at_split ht' (sends_pos ht hbetween hsame)
    have hrest' : dataSent (.read time :: (mid ++ .read time' :: .asked true :: notes)) = [] :=
      hrest
    exact ⟨time, mid, time', notes, eq_of_last_sent hbefore ht hu hbetween hrest', hnotes,
      hinterval⟩
  · intro delivered m p he hintake hnone hp hsends hfree
    have hm : Retrying identity settings.retryInterval (entered turns) m :=
      h.moves hn (intake_moves hintake)
    have hzero : m.sendCount = 0 := UInt8.toNat_inj.1 (hm.counted.symm.trans hsends)
    constructor
    · intro f hf
      rcases poll_breaks_off he hf with hf | ⟨delivered', m', hrun, hpos, -⟩
      · exact hf
      · obtain ⟨-, rfl⟩ := Prod.mk.inj (Except.ok.inj (hintake.symm.trans hrun))
        exact absurd hpos (by simp [hzero])
    · intro a n' hrun
      obtain ⟨m', hrun', hstarts⟩ := (poll_stages he).of_run_eq hrun
      obtain ⟨-, rfl⟩ := Prod.mk.inj (Except.ok.inj (hintake.symm.trans hrun'))
      exact hstarts.first_sent hnone hp hzero hfree

def lateAnswer : List (Happening Bench.World) :=
  [.command (.send 1 true), .drift (.scripted 200000 {}), .command .poll, .command (.broadcast 0),
    .drift (.scripted 200001 { inbound := [.frame { header := ⟨0x41⟩ }] })]

def betweenSends : List Event :=
  [.read 0, .noted Mark.sent.code, .noted 49, .heard .nothing, .read 200000, .asked true,
    .noted Mark.resent.code, .noted 49]

/-- The retry waits for the interval. The packet behind it, one tick later, does not. -/
theorem late_answer_spaced : ∃ r first t after time mid time' notes delivered m p,
    play (benchStart {}) lateAnswer = some r ∧
    r.2.world.log = first ++ .sent t :: (betweenSends ++ .sent t :: after) ∧
    betweenSends = .read time :: (mid ++ .read time' :: .asked true :: notes) ∧
    (∀ e ∈ notes, e.Apart) ∧ time.toNat + 100000 ≤ time'.toNat ∧
    intake.run r.2 = .ok (delivered, m) ∧ ∀ a n', poll.run r.2 = .ok (a, n') → ∃ es,
      n'.world.log = m.world.log ++ .asked true :: .sent (m.headFrame p) :: es := by
  have hrun : (play (benchStart {}) lateAnswer).any (fun r => r.2.world.log =
      [.noted Mark.queued.code, .asked true] ++ .sent ⟨.data, ⟨0x21⟩, [0]⟩ :: (betweenSends ++
        .sent ⟨.data, ⟨0x21⟩, [0]⟩ :: [.read 200000, .noted Mark.sent.code, .noted 49,
          .noted Mark.queued.code]) ∧
      r.2.enabled = true ∧ (intake.run r.2).toOption.any (fun x => x.2.pendingAck = none ∧
        x.2.queue.head?.isSome ∧ (standing {} x.2.world.log).sends = 0 ∧
        (Medium.canSend x.2.world).1 = true) = true) = true := by
    decide +kernel
  obtain ⟨r, hr, hd⟩ := (Option.any_eq_true ..).1 hrun
  obtain ⟨hlog, he, hx⟩ := of_decide_eq_true hd
  obtain ⟨x, hsome, hx⟩ := (Option.any_eq_true ..).1 hx
  obtain ⟨hnone, hp, hsends, hfree⟩ := of_decide_eq_true hx
  obtain ⟨p, hp⟩ := Option.isSome_iff_exists.1 hp
  have hintake : intake.run r.2 = .ok (x.1, x.2) := by
    cases hi : intake.run r.2 with
    | error f =>
      rw [hi] at hsome
      cases hsome
    | ok y =>
      rw [hi] at hsome
      cases hsome
      rfl
  obtain ⟨-, -, hspaced, hfirst⟩ := (Execution.of_play hr).retransmissions_spaced
  obtain ⟨time, mid, time', notes, hbetween, hnotes, hinterval⟩ :=
    hspaced _ _ _ _ _ hlog rfl rfl rfl (by decide)
  have hpoll := (hfirst x.1 x.2 p he hintake hnone hp hsends hfree).2
  exact ⟨r, _, _, _, time, mid, time', notes, x.1, x.2, p, hr, hlog, hbetween, hnotes, hinterval,
    hintake, hpoll⟩

end Runs

end StarNet.Node
