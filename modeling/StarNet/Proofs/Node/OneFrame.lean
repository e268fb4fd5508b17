import StarNet.Proofs.Node.Answers
import StarNet.Proofs.Node.Spacing

/-!
What one poll sends. Hearing comes first and sends nothing while the trace log is off. Then an
acknowledgement that is owed goes out, or else the head packet if it is due, and nothing besides.
-/
namespace StarNet.Node

def framesSent (es : List Event) : List Transmission :=
  es.filterMap fun
    | .sent t => some t
    | _ => none

theorem framesSent_append (es es' : List Event) :
    framesSent (es ++ es') = framesSent es ++ framesSent es' := List.filterMap_append

/-- The medium is not taken and then free again. -/
def Steady (es : List Event) : Prop :=
  es.Pairwise fun e e' => e = .asked false → e' ≠ .asked true

/-- An event that is neither a question to the medium nor a frame. -/
def Event.Silent : Event → Prop
  | .asked _ | .sent _ => False
  | _ => True

theorem framesSent_silent {es : List Event} (h : ∀ e ∈ es, e.Silent) : framesSent es = [] := by
  refine List.filterMap_eq_nil_iff.2 fun e he => ?_
  have hsilent := h e he
  cases e with
  | sent t => exact hsilent.elim
  | _ => rfl

variable {W : Type}

/-- What is due at some time: the head packet, if it was never sent or if the retry interval has
passed since it was sent last. -/
def dueFrames (n : Node W) (now : Ticks) : List Transmission :=
  match n.queue.head? with
  | none => []
  | some p =>
    if n.sendCount = 0 ∨ n.sendTime.toNat + n.settings.retryInterval.toNat ≤ now.toNat then
      [n.headFrame p]
    else []

section Frames

variable [Medium W] [Clock W] {n n' : Node (Recorded W)}

omit [Clock W] in
theorem Noting.log_untraced {code : UInt8} (hn : n.Untraced) (h : Noting code n n') :
    n'.world.log = n.world.log ++ [.noted code] := by
  cases h with
  | kept => exact Recorded.log_noted code
  | held hfull => simp [hn.nearlyFull_push] at hfull
  | shipped w hfull => simp [hn.nearlyFull_push] at hfull

omit [Clock W] in
theorem Remarks.log_untraced (hn : n.Untraced) (h : Remarks n n') :
    n'.Untraced ∧ ∃ es, n'.world.log = n.world.log ++ es ∧ ∀ e ∈ es, e.Silent := by
  induction h with
  | refl => exact ⟨hn, [], (List.append_nil _).symm, nofun⟩
  | tail _ hstep ih =>
    obtain ⟨code, hnoting⟩ := hstep
    obtain ⟨hm, es, hlog, hsilent⟩ := ih
    refine ⟨hm.noting hnoting, es ++ [.noted code], ?_, ?_⟩
    · rw [hnoting.log_untraced hm, hlog, List.append_assoc]
    · exact List.forall_mem_append.2 ⟨hsilent, by simp [Event.Silent]⟩

theorem Launches.sent (hn : n.Untraced) (h : Launches n n') : ∃ p es,
    n.queue.head? = some p ∧ n'.world.log = n.world.log ++ .sent (n.headFrame p) :: es ∧
      ∀ e ∈ es, e.Silent := by
  obtain ⟨m, hlaunch, hremarks⟩ := h
  obtain ⟨p, es, hp, hlog, hreads⟩ := hlaunch.sent
  obtain ⟨-, es', hlog', hsilent'⟩ := hremarks.log_untraced (hn.launch hlaunch)
  refine ⟨p, es ++ es', hp, ?_, List.forall_mem_append.2 ⟨?_, hsilent'⟩⟩
  · rw [hlog', hlog, List.append_assoc, List.cons_append]
  · intro e he
    obtain ⟨time, rfl⟩ := hreads e he
    trivial

/-- The events of one turn of the head packet, in which at most one frame is sent: what was due, if
the medium was never taken, and nothing without its permission. -/
structure HeadTurn (n n' : Node (Recorded W)) (es : List Event) : Prop where
  log : n'.world.log = n.world.log ++ es
  single : (framesSent es).length ≤ 1
  due : .asked false ∉ es → framesSent es = n.dueFrames (Clock.now n.world).1
  unpermitted : .asked true ∉ es → framesSent es = [] ∧ n'.queue = n.queue ∧
    n'.sendCount = n.sendCount ∧ n'.sendTime = n.sendTime

omit [Medium W] in
theorem HeadTurn.of_sent {p : Packet} {first rest : List Event}
    (hlog : n'.world.log = n.world.log ++ (first ++ .sent (n.headFrame p) :: rest))
    (hp : n.queue.head? = some p) (hfirst : framesSent first = []) (hrest : ∀ e ∈ rest, e.Silent)
    (hasked : .asked true ∈ first)
    (hdue : n.sendCount = 0 ∨
      n.sendTime.toNat + n.settings.retryInterval.toNat ≤ (Clock.now n.world).1.toNat) :
    HeadTurn n n' (first ++ .sent (n.headFrame p) :: rest) := by
  have hframes : framesSent (first ++ .sent (n.headFrame p) :: rest) = [n.headFrame p] := by
    rw [framesSent_append, hfirst, List.nil_append, framesSent, List.filterMap_cons, ← framesSent,
      framesSent_silent hrest]
  refine ⟨hlog, ?_, fun _ => ?_, fun hnot => absurd (List.mem_append_left _ hasked) hnot⟩
  · rw [hframes]
    exact Nat.le_refl 1
  · rw [hframes, dueFrames, hp]
    exact (if_pos hdue).symm

omit [Medium W] in
theorem HeadTurn.of_unsent {es : List Event} {w : Recorded W}
    (hlog : w.log = n.world.log ++ es) (hnone : framesSent es = [])
    (hdue : .asked false ∈ es ∨ n.dueFrames (Clock.now n.world).1 = []) :
    HeadTurn n { n with world := w } es where
  log := hlog
  single := by
    rw [hnone]
    exact Nat.zero_le 1
  due hfree := by
    rw [hnone, hdue.resolve_left hfree]
  unpermitted _ := ⟨hnone, rfl, rfl, rfl⟩

theorem dueFrames_of_empty {W : Type} {n : Node W} (h : n.queue.isEmpty = true) (now : Ticks) :
    n.dueFrames now = [] := by
  have hnone : n.queue.head? = none := by
    rw [Queue.head?, List.head?_eq_none_iff]
    refine List.eq_nil_of_length_eq_zero ?_
    simpa [Queue.isEmpty] using h
  rw [dueFrames, hnone]

theorem Resends.turn (hn : n.Untraced) (hr : Resends n n') : ∃ es, HeadTurn n n' es := by
  cases hr with
  | empty hq =>
    exact ⟨[], .of_unsent (List.append_nil _).symm rfl (.inr (dueFrames_of_empty hq _))⟩
  | held hq hc hf =>
    refine ⟨[.asked false], .of_unsent ?_ rfl (.inl List.mem_cons_self)⟩
    rw [Recorded.log_canSend, hf]
  | first hq hc hf hl =>
    obtain ⟨p, es, hp, hlog, hsilent⟩ := hl.sent (hn.in_world _)
    have hframe : n'.world.log =
        n.world.log ++ ([.asked true] ++ .sent (n.headFrame p) :: es) := by
      rw [hlog, Recorded.log_canSend, hf, List.append_assoc]
      rfl
    exact ⟨_, .of_sent hframe hp rfl hsilent List.mem_cons_self (.inl hc)⟩
  | early deadline hq hpos hd hlt =>
    refine ⟨[.read (Clock.now n.world).1], .of_unsent Recorded.log_now rfl (.inr ?_)⟩
    rw [UInt64.lt_iff_toNat_lt, toNat_of_retryTime hd] at hlt
    obtain ⟨p, hp⟩ := Queue.exists_head hq
    rw [dueFrames, hp]
    refine if_neg ?_
    rintro (hzero | hle)
    · exact absurd hpos (by simp [hzero])
    · omega
  | refused deadline hq hpos hd hdue hf =>
    refine ⟨[.read (Clock.now n.world).1, .asked false], .of_unsent ?_ rfl (.inl (by simp))⟩
    rw [Recorded.log_canSend, hf, Recorded.log_now, List.append_assoc]
    rfl
  | @again n₁ n₂ _ deadline hq hpos hd hdue hf h₁ h₂ hl =>
    have hn₁ : n₁.Untraced := (hn.in_world _).noting h₁
    obtain ⟨p, es, hp, hlog, hsilent⟩ := hl.sent (hn₁.noting h₂)
    rw [h₂.log_untraced hn₁, h₁.log_untraced (hn.in_world _), Recorded.log_canSend, hf,
      Recorded.log_now] at hlog
    obtain ⟨w, t, rfl⟩ := h₁.noted.trans h₂.noted
    rw [UInt64.le_iff_toNat_le, toNat_of_retryTime hd] at hdue
    have hframe : n'.world.log = n.world.log ++ ([.read (Clock.now n.world).1, .asked true,
        .noted Mark.resent.code, .noted n₁.depthCode] ++ .sent (n.headFrame p) :: es) := by
      rw [hlog]
      simp only [List.append_assoc]
      rfl
    exact ⟨_, .of_sent hframe hp rfl hsilent (by simp) (.inr hdue)⟩

end Frames

section Poll

variable [Medium W] [Clock W] [SignalSource W]

/-- What a poll sends once it has heard: the acknowledgement that is owed if the medium is free for
it, and otherwise the head packet if that is due. -/
structure SendsAckFirst (m n' : Node (Recorded W)) (es : List Event) : Prop where
  single : (framesSent es).length ≤ 1
  answered : ∀ ack, m.pendingAck = some ack → (Medium.canSend m.world).1 = true →
    framesSent es = [ack.transmission] ∧ n'.pendingAck = none ∧
      n'.queue = m.queue ∧ n'.sendCount = m.sendCount ∧ n'.sendTime = m.sendTime
  withheld : ∀ ack, m.pendingAck = some ack → (Medium.canSend m.world).1 = false → Steady es →
    framesSent es = [] ∧ n'.pendingAck = some ack ∧
      n'.queue = m.queue ∧ n'.sendCount = m.sendCount ∧ n'.sendTime = m.sendTime
  unowing : m.pendingAck = none → .asked false ∉ es →
    framesSent es = m.dueFrames (Clock.now m.world).1

variable {n n' : Node (Recorded W)}

omit [SignalSource W] in
theorem Starts.ack_first (hn : n.Untraced) (h : Starts n n') :
    ∃ es, n'.world.log = n.world.log ++ es ∧ SendsAckFirst n n' es := by
  cases h with
  | unowing hnone hr =>
    obtain ⟨es, hturn⟩ := hr.turn hn
    refine ⟨es, hturn.log, hturn.single, ?_, ?_, fun _ => hturn.due⟩
    · intro ack hack
      rw [hnone] at hack
      cases hack
    · intro ack hack
      rw [hnone] at hack
      cases hack
  | answer ack w hack hf ht =>
    refine ⟨[.asked true, .sent ack.transmission], ?_, Nat.le_refl 1, ?_, ?_, ?_⟩
    · rw [Recorded.log_transmit ht, Recorded.log_canSend, hf, List.append_assoc]
      rfl
    · intro ack' hack'
      obtain rfl : ack = ack' := Option.some.inj (hack.symm.trans hack')
      exact fun _ => ⟨rfl, rfl, rfl, rfl, rfl⟩
    · intro ack' _ hf'
      rw [hf] at hf'
      cases hf'
    · intro hnone
      rw [hack] at hnone
      cases hnone
  | refused ack hack hf hr =>
    obtain ⟨es, hturn⟩ := hr.turn (hn.in_world _)
    refine ⟨.asked false :: es, ?_, hturn.single, ?_, ?_, ?_⟩
    · rw [hturn.log, Recorded.log_canSend, hf, List.append_assoc]
      rfl
    · intro ack' _ hf'
      rw [hf] at hf'
      cases hf'
    · intro ack' hack' _ hsteady
      obtain rfl : ack = ack' := Option.some.inj (hack.symm.trans hack')
      have hunasked : .asked true ∉ es := fun hmem =>
        (List.pairwise_cons.1 hsteady).1 _ hmem rfl rfl
      obtain ⟨hnone, hqueue, hcount, htime⟩ := hturn.unpermitted hunasked
      exact ⟨hnone, hr.errands.keeps.2.trans hack, hqueue, hcount, htime⟩
    · intro hnone
      rw [hack] at hnone
      cases hnone

omit [Clock W] in
theorem Heard.silent {delivered : Option UInt8} (hn : n.Untraced) (h : Heard n delivered n') :
    n'.Untraced ∧ (∃ es, n'.world.log = n.world.log ++ es ∧ ∀ e ∈ es, e.Silent) ∧
      n'.sendTime = n.sendTime ∧ (n'.sendCount = n.sendCount ∨ n'.sendCount = 0) ∧
      n'.settings = n.settings := by
  obtain ⟨m, hhears, hremarks⟩ := h
  obtain ⟨hm, es, hlog, hsilent⟩ := hremarks.log_untraced (hn.hears hhears)
  obtain ⟨w, t, rfl⟩ := hremarks.noted
  have heard : ∃ es, m.world.log = n.world.log ++ es ∧ ∀ e ∈ es, e.Silent := by
    cases hhears with
    | ignore r w hr =>
      exact ⟨[.heard r], Recorded.log_receive hr, by simp [Event.Silent]⟩
    | deliver p w hr =>
      refine ⟨[.heard (.frame p), .sampled (SignalSource.sample w).1], ?_, by simp [Event.Silent]⟩
      rw [Recorded.log_sample, Recorded.log_receive hr, List.append_assoc]
      rfl
    | settle p w hr =>
      refine ⟨[.heard (.frame p), .sampled (SignalSource.sample w).1], ?_, by simp [Event.Silent]⟩
      rw [Recorded.log_sample, Recorded.log_receive hr, List.append_assoc]
      rfl
  obtain ⟨es', hlog', hsilent'⟩ := heard
  refine ⟨hm, ⟨es' ++ es, ?_, List.forall_mem_append.2 ⟨hsilent', hsilent⟩⟩, ?_⟩
  · rw [hlog, hlog', List.append_assoc]
  · cases hhears with
    | ignore => exact ⟨rfl, .inl rfl, rfl⟩
    | deliver => exact ⟨rfl, .inl rfl, rfl⟩
    | settle => exact ⟨rfl, .inr rfl, rfl⟩

omit [Clock W] in
theorem intake_untraced {delivered : Option UInt8} (hn : n.Untraced)
    (h : intake.run n = .ok (delivered, n')) : Heard n delivered n' := by
  obtain ⟨k, hships, hheard⟩ := (intake_outcome n).of_run_eq h
  cases hships with
  | undue => exact hheard
  | held payload hp => simp [hn.pending?] at hp
  | shipped payload w hp => simp [hn.pending?] at hp

theorem Execution.untraced {w : W} {identity : Identity} {settings : Settings} {capacity : Nat}
    {turns : List (Turn W)} (run : Execution (startRecorded w identity settings capacity) turns n)
    (untraced : settings.trace = false) : n.Untraced := by
  have hs : (startRecorded w identity settings capacity).Sound := .start ..
  refine run.keeps (I := fun _ n => n.Untraced) hs ⟨untraced, rfl⟩ (fun _ h he => ?_)
    (fun _ h hm => h.move hm) fun _ h => h
  rw [Untraced, he.keeps.2.1]
  exact h

/-- A poll of any node with its log off, on any medium. Hearing sends nothing. After it at most one
frame is sent: the acknowledgement that is then owed if the medium is free for it, and nothing if
the medium is taken and stays so, and with none owed the head packet if it is due and the medium
free. How often the head packet was sent, and when last, is as the record tells. Unless a retry
deadline is past the last tick, nothing but the medium breaks the poll off. -/
theorem Execution.one_frame_per_poll {w : W} {identity : Identity} {settings : Settings}
    {capacity : Nat} {turns : List (Turn W)}
    (run : Execution (startRecorded w identity settings capacity) turns n)
    (untraced : settings.trace = false) :
    ((∀ time, .read time ∈ n.world.log →
        time.toNat + settings.retryInterval.toNat < UInt64.size) →
      ∀ f, poll.run n = .error f → MediumFails W f) ∧
    ∀ delivered n', poll.run n = .ok (delivered, n') →
      (n.enabled = false → n' = n) ∧
      (n.enabled = true → ∃ m before after, intake.run n = .ok (delivered, m) ∧
        m.world.log = n.world.log ++ before ∧ (∀ e ∈ before, e.Silent) ∧
        (standing identity m.world.log).sends = m.sendCount.toNat ∧
        (0 < m.sendCount → m.TimedLast identity) ∧
        n'.world.log = m.world.log ++ after ∧ SendsAckFirst m n' after) := by
  have hs : (startRecorded w identity settings capacity).Sound := .start ..
  have hn : n.Untraced := run.untraced untraced
  have htime := run.time_on_record hs (.of_zero rfl)
  have hset : n.settings = settings := (run.steady hs).2
  constructor
  · intro intime f hf
    rcases htime.poll_error hf with hf | ⟨-, w, hread, hlate⟩
    · exact hf
    · exact absurd (hset ▸ hlate) (Nat.not_le.2 (intime _ hread))
  · intro delivered n' hrun
    constructor
    · intro he
      rw [poll_run_disabled he] at hrun
      exact (Prod.mk.inj (Except.ok.inj hrun)).2.symm
    · intro he
      obtain ⟨m, hintake, hstarts⟩ := (poll_stages he).of_run_eq hrun
      obtain ⟨hm, ⟨before, hlog, hsilent⟩, -⟩ := (intake_untraced hn hintake).silent hn
      obtain ⟨after, hlog', hfirst⟩ := hstarts.ack_first hm
      have hretrying := (run.retrying hs .start).moves (run.sound hs) (intake_moves hintake)
      exact ⟨m, before, after, hintake, hlog, hsilent, hretrying.counted, hretrying.timed, hlog',
        hfirst⟩

def requestBeforeRetry : List (Happening Bench.World) :=
  [.command (.send 1 true),
    .drift (.scripted 200000 { inbound := [.frame { header := ⟨0xA1⟩ }] })]

/-- The acknowledgement of the frame goes out, and the packet stays, though its time has come. -/
theorem request_before_retry_answered : ∃ r delivered n' m after ack,
    play (benchStart {}) requestBeforeRetry = some r ∧ poll.run r.2 = .ok (delivered, n') ∧
    intake.run r.2 = .ok (delivered, m) ∧ n'.world.log = m.world.log ++ after ∧
    m.dueFrames (Clock.now m.world).1 ≠ [] ∧ m.pendingAck = some ack ∧
    framesSent after = [ack.transmission] ∧ n'.pendingAck = none ∧ n'.queue = m.queue := by
  have hrun : (play (benchStart {}) requestBeforeRetry).any (fun r => r.2.enabled ∧
      (poll.run r.2).toOption.isSome ∧ (intake.run r.2).toOption.any fun x =>
        x.2.dueFrames (Clock.now x.2.world).1 ≠ [] ∧ x.2.pendingAck.isSome ∧
        (Medium.canSend x.2.world).1) = true := by
    decide +kernel
  obtain ⟨r, hr, hd⟩ := (Option.any_eq_true ..).1 hrun
  obtain ⟨he, hp, hx⟩ := of_decide_eq_true hd
  cases hpoll : poll.run r.2 with
  | error f =>
    rw [hpoll] at hp
    cases hp
  | ok y =>
    obtain ⟨m, before, after, hintake, -, -, -, -, hlog, hfirst⟩ :=
      ((Execution.of_play hr).one_frame_per_poll rfl).2 y.1 y.2 hpoll |>.2 he
    rw [hintake] at hx
    obtain ⟨hdue, hsome, hfree⟩ := of_decide_eq_true hx
    obtain ⟨ack, hack⟩ := Option.isSome_iff_exists.1 hsome
    obtain ⟨hframes, hcleared, hqueue, -⟩ := hfirst.answered ack hack hfree
    exact ⟨r, y.1, y.2, m, after, ack, hr, hpoll, hintake, hlog, hdue, hack, hframes, hcleared,
      hqueue⟩

end Poll

end StarNet.Node
