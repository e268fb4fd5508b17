import StarNet.Proofs.Node.Surroundings
import StarNet.Proofs.Node.Execution

/-!
Tracing does not disturb a node. Surroundings that go on the same however often they are asked
whether they are free, and whatever they are given to send, treat a node the same with its trace
log on and off. So it answers, transmits and keeps the same, but for the log frames.
-/
namespace StarNet
namespace Node

/-- Surroundings that nobody can tell have been asked, given something to send or noted: from worlds
that are the `Same` one hears, reads and samples the same. -/
class Impassive (W : Type) [Medium W] [Clock W] [SignalSource W] where
  Same : W → W → Prop
  equivalence : Equivalence Same
  canSend_same : ∀ w, Same w (Medium.canSend w).2
  transmit_same : ∀ w t, ∃ w', Medium.transmit w t = .ok w' ∧ Same w w'
  noted_same : ∀ w code, Same w (Medium.noted w code)
  enabled_eq : ∀ {v w}, Same v w → Medium.enabled v = Medium.enabled w
  canSend_eq : ∀ {v w}, Same v w → (Medium.canSend v).1 = (Medium.canSend w).1
  receive_eq : ∀ {v w}, Same v w → (Medium.receive v).1 = (Medium.receive w).1
  now_eq : ∀ {v w}, Same v w → (Clock.now v).1 = (Clock.now w).1
  sample_eq : ∀ {v w}, Same v w → (SignalSource.sample v).1 = (SignalSource.sample w).1
  receive_keeps : ∀ {v w}, Same v w → Same (Medium.receive v).2 (Medium.receive w).2
  now_keeps : ∀ {v w}, Same v w → Same (Clock.now v).2 (Clock.now w).2
  pause_keeps : ∀ {v w}, Same v w → Same (Clock.pause v) (Clock.pause w)
  sample_keeps : ∀ {v w}, Same v w → Same (SignalSource.sample v).2 (SignalSource.sample w).2
  configure_keeps : ∀ {v w} identity mode, Same v w →
    Same (Medium.configure v identity mode) (Medium.configure w identity mode)

/-- What is left of a record without the log frames and the questions whether the medium is free. -/
def Event.protocol : Event → Bool
  | .asked _ => false
  | .sent t => t.purpose ≠ .trace
  | _ => true

def protocolRecord (log : List Event) : List Event := log.filter Event.protocol

/-- A record without log frames, and one that differs from it in nothing but log frames and
questions, of worlds that are the same. -/
structure Tied {W : Type} [Medium W] [Clock W] [SignalSource W] [Impassive W]
    (r r' : Recorded W) : Prop where
  same : Impassive.Same r.surroundings r'.surroundings
  record : protocolRecord r'.log = protocolRecord r.log
  unlogged : ∀ t, .sent t ∈ r.log → t.purpose ≠ .trace

def logging {W : Type} (n : Node W) (world : W) (trace : TraceLog) : Node W :=
  { n with world, trace, settings := { n.settings with trace := true } }

variable {W : Type} [Medium W] [Clock W] [SignalSource W] [Impassive W] {α β : Type}

/-- The same answer, and the same node but for the log and what it does to the record, or the same
fault. -/
inductive Agree : Except Fault (α × Node (Recorded W)) → Except Fault (α × Node (Recorded W)) →
    Prop where
  | ok (a : α) (m : Node (Recorded W)) (r : Recorded W) (trace : TraceLog) (untraced : m.Untraced)
      (tied : Tied m.world r) : Agree (.ok (a, m)) (.ok (a, m.logging r trace))
  | error (f : Fault) : Agree (.error f) (.error f)

def Indifferent (x : NodeM (Recorded W) α) : Prop :=
  ∀ n r trace, n.Untraced → Tied n.world r → Agree (x.run n) (x.run (n.logging r trace))

section Tied

variable {r r' : Recorded W} {v v' : W} {e e' : Event} {t : Transmission}

theorem protocolRecord_concat (log : List Event) (e : Event) :
    protocolRecord (log ++ [e]) = protocolRecord log ++ protocolRecord [e] :=
  List.filter_append log [e]

theorem Tied.add (h : Tied r r') (hsame : Impassive.Same v v') (he : e' = e)
    (hkind : ∀ t, e = .sent t → t.purpose ≠ .trace) : Tied (r.add v e) (r'.add v' e') where
  same := hsame
  record := by
    subst he
    simp only [Recorded.add, protocolRecord_concat, h.record]
  unlogged := by
    intro t ht
    rcases List.mem_append.1 ht with ht | ht
    · exact h.unlogged t ht
    · exact hkind t (List.mem_singleton.1 ht).symm

theorem Tied.add_right (h : Tied r r') (hsame : Impassive.Same r'.surroundings v')
    (he : e.protocol = false) : Tied r (r'.add v' e) where
  same := Impassive.equivalence.trans h.same hsame
  record := by
    have hnone : protocolRecord [e] = [] := by simp [protocolRecord, he]
    simp only [Recorded.add, protocolRecord_concat, h.record, hnone, List.append_nil]
  unlogged := h.unlogged

theorem same_after {u u' : W} (h : Impassive.Same u u') (hv : Impassive.Same u v)
    (hv' : Impassive.Same u' v') : Impassive.Same v v' :=
  Impassive.equivalence.trans (Impassive.equivalence.symm hv) (Impassive.equivalence.trans h hv')

theorem enabled_logging {n : Node (Recorded W)} {trace : TraceLog} (h : Tied n.world r) :
    (n.logging r trace).enabled = n.enabled := (Impassive.enabled_eq h.same).symm

theorem Tied.canSend_eq (h : Tied r r') : (Medium.canSend r').1 = (Medium.canSend r).1 :=
  (Impassive.canSend_eq h.same).symm

theorem Tied.receive_eq (h : Tied r r') : (Medium.receive r').1 = (Medium.receive r).1 :=
  (Impassive.receive_eq h.same).symm

theorem Tied.now_eq (h : Tied r r') : (Clock.now r').1 = (Clock.now r).1 :=
  (Impassive.now_eq h.same).symm

theorem Tied.sample_eq (h : Tied r r') :
    (SignalSource.sample r').1 = (SignalSource.sample r).1 :=
  (Impassive.sample_eq h.same).symm

theorem Tied.canSend (h : Tied r r') : Tied (Medium.canSend r).2 (Medium.canSend r').2 :=
  h.add (same_after h.same (Impassive.canSend_same _) (Impassive.canSend_same _))
    (congrArg Event.asked h.canSend_eq) nofun

theorem Tied.receive (h : Tied r r') : Tied (Medium.receive r).2 (Medium.receive r').2 :=
  h.add (Impassive.receive_keeps h.same) (congrArg Event.heard h.receive_eq) nofun

theorem Tied.now (h : Tied r r') : Tied (Clock.now r).2 (Clock.now r').2 :=
  h.add (Impassive.now_keeps h.same) (congrArg Event.read h.now_eq) nofun

theorem Tied.sample (h : Tied r r') :
    Tied (SignalSource.sample r).2 (SignalSource.sample r').2 :=
  h.add (Impassive.sample_keeps h.same) (congrArg Event.sampled h.sample_eq) nofun

theorem Tied.noted (h : Tied r r') (code : UInt8) :
    Tied (Medium.noted r code) (Medium.noted r' code) :=
  h.add (same_after h.same (Impassive.noted_same _ _) (Impassive.noted_same _ _)) rfl nofun

theorem Tied.configure (h : Tied r r') (identity : Identity) (mode : RadioMode) :
    Tied (Medium.configure r identity mode) (Medium.configure r' identity mode) :=
  h.add (Impassive.configure_keeps identity mode h.same) rfl nofun

theorem Tied.pause (h : Tied r r') : Tied (Clock.pause r) (Clock.pause r') where
  same := Impassive.pause_keeps h.same
  record := h.record
  unlogged := h.unlogged

omit [Clock W] [SignalSource W] [Impassive W] in
theorem transmit_recorded (h : Medium.transmit r.surroundings t = .ok v) :
    Medium.transmit r t = .ok (r.add v (.sent t)) := by
  change (do return r.add (← Medium.transmit r.surroundings t) (.sent t) :
    Except Fault (Recorded W)) = _
  rw [h]
  rfl

theorem Tied.transmit (h : Tied r r') (ht : t.purpose ≠ .trace) :
    ∃ s s', Medium.transmit r t = .ok s ∧ Medium.transmit r' t = .ok s' ∧ Tied s s' := by
  obtain ⟨w, hw, hsame⟩ := Impassive.transmit_same r.surroundings t
  obtain ⟨w', hw', hsame'⟩ := Impassive.transmit_same r'.surroundings t
  refine ⟨_, _, transmit_recorded hw, transmit_recorded hw', ?_⟩
  apply h.add (same_after h.same hsame hsame') rfl
  rintro t' ⟨⟩
  exact ht

theorem Tied.asks (h : Tied r r') : Tied r (Medium.canSend r').2 :=
  h.add_right (Impassive.canSend_same _) rfl

theorem Tied.ships (h : Tied r r') (ht : t.purpose = .trace) :
    ∃ s', Medium.transmit r' t = .ok s' ∧ Tied r s' := by
  obtain ⟨w', hw', hsame'⟩ := Impassive.transmit_same r'.surroundings t
  refine ⟨_, transmit_recorded hw', h.add_right hsame' ?_⟩
  simp [Event.protocol, ht]

end Tied

namespace Indifferent

theorem pure (a : α) : Indifferent (pure a : NodeM (Recorded W) α) :=
  fun n r trace hn hr => .ok a n r trace hn hr

theorem throw (f : Fault) : Indifferent (throw f : NodeM (Recorded W) α) :=
  fun _ _ _ _ _ => .error f

theorem bind {x : NodeM (Recorded W) α} {f : α → NodeM (Recorded W) β} (hx : Indifferent x)
    (hf : ∀ a, Indifferent (f a)) : Indifferent (x >>= f) := by
  intro n r trace hn hr
  rw [StateT.run_bind, StateT.run_bind]
  have hagree := hx n r trace hn hr
  generalize x.run n = first, x.run (n.logging r trace) = second at hagree
  cases hagree with
  | ok a m r' trace' hm hr' => exact hf a m r' trace' hm hr'
  | error f => exact .error f

theorem lift (x : Except Fault α) : Indifferent (liftM x : NodeM (Recorded W) α) := by
  cases x with
  | error f => exact throw f
  | ok a => exact pure a

theorem get {f : Node (Recorded W) → NodeM (Recorded W) α}
    (hf : ∀ n r trace, f (n.logging r trace) = f n) (h : ∀ n, Indifferent (f n)) :
    Indifferent (do f (← MonadState.get)) := by
  intro n r trace hn hr
  change Agree ((f n).run n) ((f (n.logging r trace)).run (n.logging r trace))
  rw [hf]
  exact h n n r trace hn hr

theorem get_run {f : Node (Recorded W) → NodeM (Recorded W) α}
    (h : ∀ n r trace, n.Untraced → Tied n.world r →
      Agree ((f n).run n) ((f (n.logging r trace)).run (n.logging r trace))) :
    Indifferent (do f (← MonadState.get)) := h

theorem modify {change : Node (Recorded W) → Node (Recorded W)}
    (hworld : ∀ n, (change n).world = n.world) (htrace : ∀ n, (change n).trace = n.trace)
    (hchange : ∀ n r trace, change (n.logging r trace) = (change n).logging r trace) :
    Indifferent (MonadState.modifyGet fun n => ((), change n)) := by
  intro n r trace hn hr
  change Agree (.ok ((), change n)) (.ok ((), change (n.logging r trace)))
  rw [hchange]
  refine .ok () (change n) r trace ?_ ?_
  · rw [Untraced, htrace]
    exact hn
  · rw [hworld]
    exact hr

end Indifferent

theorem canSend_indifferent : Indifferent (canSend : NodeM (Recorded W) Bool) := by
  intro n r trace hn hr
  change Agree (.ok ((Medium.canSend n.world).1, { n with world := (Medium.canSend n.world).2 }))
    (.ok ((Medium.canSend r).1, n.logging (Medium.canSend r).2 trace))
  rw [hr.canSend_eq]
  exact .ok _ { n with world := (Medium.canSend n.world).2 } _ trace hn hr.canSend

theorem receive_indifferent : Indifferent (receive : NodeM (Recorded W) Reception) := by
  intro n r trace hn hr
  let m : Node (Recorded W) := { n with
    world := (Medium.receive n.world).2
    received := (Medium.receive n.world).1.into n.received }
  change Agree (.ok ((Medium.receive n.world).1, m)) (.ok ((Medium.receive r).1,
    { m with received := (Medium.receive r).1.into n.received }.logging (Medium.receive r).2 trace))
  rw [hr.receive_eq]
  exact .ok _ m _ trace hn hr.receive

theorem readClock_indifferent : Indifferent (readClock : NodeM (Recorded W) Ticks) := by
  intro n r trace hn hr
  change Agree (.ok ((Clock.now n.world).1, { n with world := (Clock.now n.world).2 }))
    (.ok ((Clock.now r).1, n.logging (Clock.now r).2 trace))
  rw [hr.now_eq]
  exact .ok _ { n with world := (Clock.now n.world).2 } _ trace hn hr.now

theorem sampleSignal_indifferent : Indifferent (sampleSignal : NodeM (Recorded W) Unit) := by
  intro n r trace hn hr
  let m : Node (Recorded W) := { n with
    world := (SignalSource.sample n.world).2
    receiveSignal := (SignalSource.sample n.world).1 }
  change Agree (.ok ((), m)) (.ok ((), { m with receiveSignal :=
    (SignalSource.sample r).1 }.logging (SignalSource.sample r).2 trace))
  rw [hr.sample_eq]
  exact .ok () m _ trace hn hr.sample

theorem pause_indifferent : Indifferent (pause : NodeM (Recorded W) Unit) := by
  intro n r trace hn hr
  exact .ok () { n with world := Clock.pause n.world } _ trace hn hr.pause

omit [Clock W] [SignalSource W] [Impassive W] in
theorem transmit_run {n : Node (Recorded W)} {t : Transmission} {r : Recorded W}
    (h : Medium.transmit n.world t = .ok r) :
    (transmit t).run n = .ok ((), { n with world := r }) := by
  apply run_eq_ok
  rw [outcome_transmit, h]
  refine ⟨?_, nofun⟩
  rintro w ⟨⟩
  exact ⟨rfl, rfl⟩

theorem transmit_indifferent {t : Transmission} (ht : t.purpose ≠ .trace) :
    Indifferent (transmit t : NodeM (Recorded W) Unit) := by
  intro n r trace hn hr
  obtain ⟨s, s', hs, hs', htied⟩ := hr.transmit ht
  rw [transmit_run hs, transmit_run (n := n.logging r trace) hs']
  exact .ok () { n with world := s } s' trace hn htied

/-- The log is shipped by the one that has it on, and what comes of it is the other one's record but
for a question and a log frame. -/
theorem shipTrace_indifferent (force : Bool) :
    Indifferent (shipTrace force : NodeM (Recorded W) Unit) := by
  intro n r trace hn hr
  have look (m : Node (Recorded W)) : (MonadState.get : NodeM (Recorded W) _).run m = .ok (m, m) :=
    rfl
  have htrace : (n.logging r trace).trace = trace := rfl
  rw [shipTrace_run hn, shipTrace, run_bind_ok (look _), htrace]
  cases trace.pending? force with
  | none => exact .ok () n r trace hn hr
  | some payload =>
    let m := n.logging (Medium.canSend r).2 trace
    have hasked : (canSend : NodeM (Recorded W) Bool).run (n.logging r trace) =
        .ok ((Medium.canSend r).1, m) := rfl
    dsimp only
    rw [run_bind_ok hasked]
    cases (Medium.canSend r).1 with
    | false => exact .ok () n _ trace hn hr.asks
    | true =>
      obtain ⟨s', hs', htied⟩ := hr.asks.ships
        (t := ⟨.trace, .fromNode m.identity.node, payload⟩) rfl
      rw [if_pos rfl, run_bind_ok (look m), run_bind_ok (transmit_run (n := m) hs')]
      exact .ok () n s' trace.clear hn htied

theorem noteCode_indifferent (code : UInt8) :
    Indifferent (noteCode code : NodeM (Recorded W) Unit) := by
  intro n r trace hn hr
  let m : Node (Recorded W) := { n with world := Medium.noted n.world code }
  rw [noteCode_untraced hn]
  unfold noteCode
  change Agree _ (StateT.run (if (trace.push code).nearlyFull = true then shipTrace false else _)
    (m.logging (Medium.noted r code) (trace.push code)))
  split
  · have hship := shipTrace_indifferent false m _ (trace.push code) hn (hr.noted code)
    rwa [shipTrace_run (n := m) hn] at hship
  · exact .ok () m _ _ hn (hr.noted code)

theorem note_indifferent (mark : Mark) : Indifferent (note mark : NodeM (Recorded W) Unit) :=
  noteCode_indifferent mark.code

theorem noteDepth_indifferent : Indifferent (noteDepth : NodeM (Recorded W) Unit) := by
  unfold noteDepth
  apply Indifferent.get
  · intro n r trace
    rfl
  · intro n
    exact noteCode_indifferent _

theorem notes_indifferent (mark : Mark) :
    Indifferent (do note mark; noteDepth : NodeM (Recorded W) Unit) :=
  (note_indifferent mark).bind fun _ => noteDepth_indifferent

theorem dropHead_indifferent : Indifferent (dropHead : NodeM (Recorded W) Unit) :=
  .modify (fun _ => rfl) (fun _ => rfl) fun _ _ _ => rfl

theorem awaitAck_indifferent : Indifferent (awaitAck : NodeM (Recorded W) Unit) := by
  unfold awaitAck
  apply Indifferent.get_run
  intro n r trace hn hr
  change Agree (StateT.run (if n.sendCount = 255 then _ else _) n)
    (StateT.run (if n.sendCount = 255 then _ else _) (n.logging r trace))
  split
  · exact .error _
  · have hrest : Indifferent (do
        let now ← readClock
        modify fun n => { n with sendTime := now } : NodeM (Recorded W) Unit) := by
      apply readClock_indifferent.bind
      intro now
      exact .modify (fun _ => rfl) (fun _ => rfl) fun _ _ _ => rfl
    exact hrest { n with sendCount := n.sendCount + 1 } r trace hn hr

theorem sendHead_indifferent : Indifferent (sendHead : NodeM (Recorded W) Unit) := by
  unfold sendHead
  apply Indifferent.get
  · intro n r trace
    rfl
  intro n
  split
  · exact .pure ()
  · rename_i p _
    dsimp only
    generalize (if n.lastSend = true then p.header.withoutAck else p.header) = header
    refine Indifferent.bind (transmit_indifferent nofun) fun _ => ?_
    split
    · apply awaitAck_indifferent.bind
      intro _
      exact notes_indifferent .sent
    · apply dropHead_indifferent.bind
      intro _
      exact notes_indifferent .sent

theorem allocate_indifferent (change : Buffer → Buffer) :
    Indifferent (allocate change : NodeM (Recorded W) (Option Buffer)) := by
  unfold allocate
  apply Indifferent.get_run
  intro n r trace hn hr
  rw [enabled_logging hr]
  split
  · exact .ok _ { n with queue := n.queue.fill change } r trace hn hr
  · exact .ok none n r trace hn hr

theorem sendRaw_indifferent (length : UInt8) (header : Header) :
    Indifferent (sendRaw length header : NodeM (Recorded W) (Except SendError Unit)) := by
  unfold sendRaw
  apply Indifferent.get_run
  intro n r trace hn hr
  have hqueue : (n.logging r trace).queue = n.queue := rfl
  rw [enabled_logging hr, hqueue]
  split
  · cases n.queue.push header length with
    | error e => exact .ok _ n r trace hn hr
    | ok queue =>
      have hrest : Indifferent (do
          note .queued
          if (← get).queue.count = 1 then
            if ← canSend then sendHead else note .held
          return .ok () : NodeM (Recorded W) (Except SendError Unit)) := by
        apply (note_indifferent _).bind
        intro _
        apply Indifferent.get
        · intro n r trace
          rfl
        intro n
        split
        · apply canSend_indifferent.bind
          intro free
          split
          · exact sendHead_indifferent.bind fun _ => .pure _
          · exact (note_indifferent _).bind fun _ => .pure _
        · exact .pure _
      exact hrest { n with queue } r trace hn hr
  · exact .ok _ n r trace hn hr

theorem acceptData_indifferent (header : Header) :
    Indifferent (acceptData header : NodeM (Recorded W) (Option UInt8)) := by
  have close : Indifferent (do
      let module? := (← get).received.module?
      note .received
      noteCode (traceDigit (module?.getD 0))
      noteDepth
      return module? : NodeM (Recorded W) (Option UInt8)) := by
    apply Indifferent.get
    · intro n r trace
      rfl
    intro n
    apply (note_indifferent _).bind
    intro _
    apply (noteCode_indifferent _).bind
    intro _
    exact noteDepth_indifferent.bind fun _ => .pure _
  unfold acceptData
  apply sampleSignal_indifferent.bind
  intro _
  dsimp only
  split
  · refine Indifferent.bind ?_ fun _ => close
    exact .modify (fun _ => rfl) (fun _ => rfl) fun _ _ _ => rfl
  · exact close

theorem acceptAck_indifferent (header : Header) :
    Indifferent (acceptAck header : NodeM (Recorded W) Unit) := by
  unfold acceptAck
  apply Indifferent.get
  · intro n r trace
    rfl
  intro n
  dsimp only
  split
  · apply sampleSignal_indifferent.bind
    intro _
    refine Indifferent.bind ?_ fun _ => ?_
    · exact .modify (fun _ => rfl) (fun _ => rfl) fun _ _ _ => rfl
    · apply dropHead_indifferent.bind
      intro _
      exact notes_indifferent .acked
  · exact notes_indifferent .strayAck

theorem accept_indifferent (reception : Reception) :
    Indifferent (accept reception : NodeM (Recorded W) (Option UInt8)) := by
  cases reception with
  | nothing => exact .pure none
  | badChecksum => exact (note_indifferent _).bind fun _ => .pure none
  | frame p =>
    unfold accept acceptFrame
    apply Indifferent.get
    · intro n r trace
      rfl
    intro n
    dsimp only
    split
    · exact .pure none
    split
    · exact acceptData_indifferent _
    split
    · exact (note_indifferent _).bind fun _ => .pure none
    · exact (acceptAck_indifferent _).bind fun _ => .pure none

theorem resend_indifferent : Indifferent (resend : NodeM (Recorded W) Unit) := by
  unfold resend
  apply Indifferent.get
  · intro n r trace
    rfl
  intro n
  split
  · exact .pure ()
  split
  · apply canSend_indifferent.bind
    intro free
    split
    · exact sendHead_indifferent
    · exact .pure ()
  · apply readClock_indifferent.bind
    intro now
    apply (Indifferent.lift _).bind
    intro deadline
    split
    · apply canSend_indifferent.bind
      intro free
      split
      · apply (note_indifferent _).bind
        intro _
        exact noteDepth_indifferent.bind fun _ => sendHead_indifferent
      · exact .pure ()
    · exact .pure ()

theorem startTransmission_indifferent :
    Indifferent (startTransmission : NodeM (Recorded W) Unit) := by
  unfold startTransmission
  apply Indifferent.get
  · intro n r trace
    rfl
  intro n
  split
  · exact resend_indifferent
  · apply canSend_indifferent.bind
    intro free
    split
    · refine Indifferent.bind ?_ fun _ => transmit_indifferent nofun
      exact .modify (fun _ => rfl) (fun _ => rfl) fun _ _ _ => rfl
    · exact resend_indifferent

theorem poll_indifferent : Indifferent (poll : NodeM (Recorded W) (Option UInt8)) := by
  have hpoll : Indifferent (do
      shipTrace false
      let delivered ← accept (← receive)
      startTransmission
      return delivered : NodeM (Recorded W) (Option UInt8)) := by
    apply (shipTrace_indifferent false).bind
    intro _
    apply receive_indifferent.bind
    intro reception
    apply (accept_indifferent reception).bind
    intro delivered
    exact startTransmission_indifferent.bind fun _ => .pure delivered
  unfold poll
  apply Indifferent.get_run
  intro n r trace hn hr
  rw [enabled_logging hr]
  split
  · exact hpoll n r trace hn hr
  · exact .ok none n r trace hn hr

theorem continueFlush_indifferent :
    Indifferent (continueFlush : NodeM (Recorded W) (Option FlushResult)) := by
  unfold continueFlush
  apply Indifferent.get
  · intro n r trace
    rfl
  intro n
  split
  · apply poll_indifferent.bind
    intro delivered
    cases delivered <;> exact .pure _
  · exact .pure _

theorem beginFlush_indifferent :
    Indifferent (beginFlush : NodeM (Recorded W) (Option FlushResult)) := by
  unfold beginFlush
  apply Indifferent.get
  · intro n r trace
    rfl
  intro n
  split
  · exact continueFlush_indifferent
  · exact poll_indifferent.bind fun _ => .pure _

theorem flushWithin_indifferent (allowance : Nat) :
    Indifferent (flushWithin allowance : NodeM (Recorded W) FlushResult) := by
  induction allowance with
  | zero =>
    apply continueFlush_indifferent.bind
    intro result
    cases result <;> exact .pure _
  | succ allowance ih =>
    apply continueFlush_indifferent.bind
    intro result
    cases result with
    | some result => exact .pure result
    | none => exact pause_indifferent.bind fun _ => ih

theorem flush_indifferent (allowance : Nat) :
    Indifferent (flush allowance : NodeM (Recorded W) FlushResult) := by
  unfold flush
  apply Indifferent.get
  · intro n r trace
    rfl
  intro n
  split
  · exact flushWithin_indifferent allowance
  · exact poll_indifferent.bind fun _ => .pure _

theorem initRadio_indifferent (mode : RadioMode) :
    Indifferent (initRadio mode : NodeM (Recorded W) Unit) := by
  unfold initRadio
  apply Indifferent.get_run
  intro n r trace hn hr
  rw [enabled_logging hr]
  split
  · exact note_indifferent .mediumReady
      { n with world := Medium.configure n.world n.identity mode } _ trace hn
      (hr.configure n.identity mode)
  · exact .ok () n r trace hn hr

theorem send_indifferent (length : UInt8) (ack : Bool) :
    Indifferent (send length ack : NodeM (Recorded W) (Except SendError Unit)) := by
  unfold send
  apply Indifferent.get
  · intro n r trace
    rfl
  intro n
  exact sendRaw_indifferent length _

theorem broadcast_indifferent (length : UInt8) :
    Indifferent (broadcast length : NodeM (Recorded W) (Except SendError Unit)) := by
  unfold broadcast
  apply Indifferent.get
  · intro n r trace
    rfl
  intro n
  exact sendRaw_indifferent length _

theorem perform_indifferent (c : Command) :
    Indifferent (perform c : NodeM (Recorded W) Answer) := by
  cases c with
  | allocate change => exact (allocate_indifferent change).bind fun _ => .pure _
  | send length ack => exact (send_indifferent length ack).bind fun _ => .pure _
  | broadcast length => exact (broadcast_indifferent length).bind fun _ => .pure _
  | sendRaw length header => exact (sendRaw_indifferent length header).bind fun _ => .pure _
  | poll => exact poll_indifferent.bind fun _ => .pure _
  | flush allowance => exact (flush_indifferent allowance).bind fun _ => .pure _
  | shipTrace force => exact (shipTrace_indifferent force).bind fun _ => .pure _
  | initRadio mode => exact (initRadio_indifferent mode).bind fun _ => .pure _

/-- Something done with a node in its surroundings. A flush may be done pass by pass. In between,
as between all else, the surroundings may change in a way that keeps the same what is the same. -/
inductive Act (W : Type) [Medium W] [Clock W] [SignalSource W] [Impassive W] where
  | command (c : Command)
  | beginFlush
  | continueFlush
  | drift (change : W → W)
      (keeps : ∀ v w, Impassive.Same v w → Impassive.Same (change v) (change w))

/-- A change of the surroundings and a pass of a flush that has to go on answer nothing. -/
def Act.perform : Act W → NodeM (Recorded W) (Option Answer)
  | .command c => do return some (← Node.perform c)
  | .beginFlush => do return (← Node.beginFlush).map .flushed
  | .continueFlush => do return (← Node.continueFlush).map .flushed
  | .drift change _ => do
    modify fun n =>
      { n with world := { n.world with surroundings := change n.world.surroundings } }
    return none

def performActs : List (Act W) → NodeM (Recorded W) (List (Option Answer))
  | [] => return []
  | act :: acts => do
    let answer ← act.perform
    return answer :: (← performActs acts)

theorem Act.perform_indifferent (act : Act W) : Indifferent act.perform := by
  cases act with
  | command c => exact (Node.perform_indifferent c).bind fun _ => .pure _
  | beginFlush => exact beginFlush_indifferent.bind fun _ => .pure _
  | continueFlush => exact continueFlush_indifferent.bind fun _ => .pure _
  | drift change keeps =>
    refine Indifferent.bind ?_ fun _ => .pure none
    intro n r trace hn hr
    refine .ok () { n with world := { n.world with surroundings := change n.world.surroundings } }
      { r with surroundings := change r.surroundings } trace hn ?_
    exact ⟨keeps _ _ hr.same, hr.record, hr.unlogged⟩

theorem performActs_indifferent (acts : List (Act W)) : Indifferent (performActs acts) := by
  induction acts with
  | nil => exact .pure []
  | cons act acts ih => exact act.perform_indifferent.bind fun _ => ih.bind fun _ => .pure _

/-- Whatever is done with a node from its start on: with its log on it answers the same as with its
log off and ends in the same fault or the same state, having dealt with its surroundings in the same
way but for log frames and questions whether the medium is free. -/
theorem tracing_disturbs_nothing (w : W) (identity : Identity) (settings : Settings)
    (capacity : Nat) (acts : List (Act W)) :
    Agree
      ((performActs acts).run (startRecorded w identity { settings with trace := false } capacity))
      ((performActs acts).run
        (startRecorded w identity { settings with trace := true } capacity)) := by
  have htied : Tied (W := W) ⟨w, []⟩ ⟨w, []⟩ := ⟨Impassive.equivalence.refl w, rfl, nofun⟩
  exact performActs_indifferent acts
    (startRecorded w identity { settings with trace := false } capacity) ⟨w, []⟩
    { enabled := true } ⟨rfl, rfl⟩ htied

end Node

namespace Timetable

variable {C S : Type}

def plain (w : Timetable C S) : Timetable C S := { w with questions := 0, sent := [] }

instance [Clock C] [SignalSource S] : Node.Impassive (Timetable C S) where
  Same v w := v.plain = w.plain
  equivalence := ⟨fun _ => rfl, Eq.symm, Eq.trans⟩
  canSend_same _ := rfl
  transmit_same _ _ := ⟨_, rfl, rfl⟩
  noted_same _ _ := rfl
  enabled_eq _ := rfl
  canSend_eq h := (congrArg (fun w : Timetable C S => w.free w.turn) h :)
  receive_eq h := (congrArg (fun w : Timetable C S => w.inbound w.turn) h :)
  now_eq h := (congrArg (fun w : Timetable C S => (Clock.now w.clock).1) h :)
  sample_eq h := (congrArg (fun w : Timetable C S => (SignalSource.sample w.signal).1) h :)
  receive_keeps h := h
  now_keeps h := congrArg (fun w : Timetable C S => { w with clock := (Clock.now w.clock).2 }) h
  pause_keeps h := congrArg
    (fun w : Timetable C S => { w.next with clock := Clock.pause w.clock }) h
  sample_keeps h := congrArg
    (fun w : Timetable C S => { w with signal := (SignalSource.sample w.signal).2 }) h
  configure_keeps _ _ h := h

theorem next_keeps [Clock C] [SignalSource S] (v w : Timetable C S)
    (h : Node.Impassive.Same v w) : Node.Impassive.Same v.next w.next :=
  congrArg next h

end Timetable

namespace Node

def steadyTraffic : Timetable Bench.TickClock Absent where
  free _ := true
  inbound _ := .frame { header := ⟨0x23⟩, length := 1 }
  clock := {}
  signal := .absent

def twelvePolls : List (Act (Timetable Bench.TickClock Absent)) :=
  (List.replicate 12 [.drift .next Timetable.next_keeps, .command .poll]).flatten

theorem log_frame_disturbs_nothing :
    ((performActs twelvePolls).run
      (startRecorded steadyTraffic {} { ({} : Settings) with trace := true } 3)).toOption.any
        (fun r => r.2.world.surroundings.sent.any fun t => t.purpose = .trace) = true ∧
    Agree
      ((performActs twelvePolls).run
        (startRecorded steadyTraffic {} { ({} : Settings) with trace := false } 3))
      ((performActs twelvePolls).run
        (startRecorded steadyTraffic {} { ({} : Settings) with trace := true } 3)) := by
  constructor
  · decide +kernel
  · exact tracing_disturbs_nothing steadyTraffic {} {} 3 twelvePolls

end Node
end StarNet
