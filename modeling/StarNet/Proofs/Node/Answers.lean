import StarNet.Proofs.Node.Deadline
import StarNet.Proofs.Node.MediumContract

/-!
The acknowledgements a node sends. A request determines its acknowledgement; the one owed is that
of the newest request. It is sent in the first poll in which the medium is free for it, and only
once, unless a later request takes its place before.
-/
namespace StarNet

def PendingAck.transmission (ack : PendingAck) : Transmission := ⟨.ack, ack.header, [ack.signal]⟩

namespace Node

/-- A frame that is accepted as data and asks for an acknowledgement. -/
def Requests (own : Identity) (h : Header) : Prop :=
  ¬ (h.directed = true ∧ h.node ≠ own.node.number) ∧ h.control = false ∧ h.wantsAck = true

instance (own : Identity) (h : Header) : Decidable (Requests own h) :=
  inferInstanceAs (Decidable (_ ∧ _))

def answerTo (own : Identity) (h : Header) (signal : UInt8) : Transmission :=
  ⟨.ack, .ackFor h.node own.node, [signal]⟩

inductive Letter where
  /-- A request came in, which determines this acknowledgement. -/
  | request (answer : Transmission)
  /-- An acknowledgement was sent. -/
  | answer (t : Transmission)
  deriving DecidableEq

def Letter.request? : Letter → Option Transmission
  | .request t => some t
  | .answer _ => none

def Letter.answer? : Letter → Option Transmission
  | .request _ => none
  | .answer t => some t

/-- The letters of a record; both have the newest first. A request is sampled right after it was
heard. -/
def lettersOf (own : Identity) : List Event → List Letter
  | .sampled signal :: .heard (.frame p) :: before =>
    if Requests own p.header then .request (answerTo own p.header signal) :: lettersOf own before
    else lettersOf own before
  | .sent t :: before =>
    if t.purpose = .ack then .answer t :: lettersOf own before else lettersOf own before
  | _ :: before => lettersOf own before
  | [] => []

def letters (own : Identity) (log : List Event) : List Letter := lettersOf own log.reverse

/-- The acknowledgement of the newest letter, if that is a request. -/
def owed : List Letter → Option Transmission
  | .request t :: _ => some t
  | _ => none

/-- Every acknowledgement is that of the letter before it, which is a request. -/
def Answered : List Letter → Prop
  | [] => True
  | .request _ :: ls => Answered ls
  | .answer t :: ls => owed ls = some t ∧ Answered ls

theorem Answered.sublist {ls : List Letter} (h : Answered ls) :
    (ls.filterMap Letter.answer?).Sublist (ls.filterMap Letter.request?) := by
  suffices hs : ∀ ls, Answered ls →
      (ls.filterMap Letter.answer?).Sublist (ls.filterMap Letter.request?) ∧
      ∀ t, owed ls = some t →
        (t :: ls.filterMap Letter.answer?).Sublist (ls.filterMap Letter.request?) from
    (hs ls h).1
  intro ls h
  induction ls with
  | nil => exact ⟨List.Sublist.refl _, nofun⟩
  | cons l ls ih =>
    cases l with
    | request u =>
      refine ⟨(ih h).1.cons u, ?_⟩
      intro t ht
      obtain rfl : u = t := Option.some.inj ht
      exact (ih h).1.cons_cons u
    | answer u => exact ⟨(ih h.2).2 u h.1, nofun⟩

def Event.isNote : Event → Bool
  | .noted _ => true
  | _ => false

def asksForLog (trace : Bool) (before : List Event) : Bool :=
  before.getLast?.any Event.isNote && 3 * TraceLog.capacity / 4 ≤ loggedNotes trace before

/-- The first answer of the medium since a frame was last asked for, questions for the log aside.
The record has the newest event first. -/
def openingOf (trace : Bool) : List Event → Option Bool
  | .asked free :: before =>
    (openingOf trace before).or (if asksForLog trace before.reverse then none else some free)
  | .heard _ :: _ => none
  | _ :: before => openingOf trace before
  | [] => none

def opening (trace : Bool) (log : List Event) : Option Bool := openingOf trace log.reverse

/-- If an acknowledgement is owed, the medium was asked for it in the poll so far, and was taken. -/
def Refused (own : Identity) (trace : Bool) (log : List Event) : Prop :=
  (owed (letters own log)).isSome = true → opening trace log = some false

def Unsampled (own : Identity) (log : List Event) : Prop :=
  ∃ p, log.getLast? = some (.heard (.frame p)) ∧ Requests own p.header

/-- A request is sampled at once, and a poll is not over before the medium was asked for the
acknowledgement owed. -/
def Mannered (own : Identity) (trace : Bool) (before : List Event) (e : Event) : Prop :=
  (Unsampled own before → ∃ signal, e = .sampled signal) ∧
    ∀ r, e = .heard r → Refused own trace before

def Event.neutral : Event → Bool
  | .heard _ | .sampled _ => false
  | .sent t => t.purpose != .ack
  | _ => true

section Record

variable {own : Identity} {trace : Bool} {log : List Event} {e : Event}

theorem letters_neutral (h : e.neutral = true) : letters own (log ++ [e]) = letters own log := by
  unfold letters
  rw [List.reverse_append]
  cases e with
  | sent t =>
    have ht : t.purpose ≠ .ack := by simpa [Event.neutral] using h
    exact if_neg ht
  | heard | sampled => simp [Event.neutral] at h
  | _ => rfl

theorem letters_heard (r : Reception) :
    letters own (log ++ [.heard r]) = letters own log := by
  unfold letters
  rw [List.reverse_append]
  rfl

theorem letters_sampled (p : Packet) (signal : UInt8) :
    letters own (log ++ [.heard (.frame p)] ++ [.sampled signal]) =
      if Requests own p.header then .request (answerTo own p.header signal) :: letters own log
      else letters own log := by
  unfold letters
  rw [List.reverse_append, List.reverse_append]
  rfl

theorem letters_answer {t : Transmission} (h : t.purpose = .ack) :
    letters own (log ++ [.sent t]) = .answer t :: letters own log := by
  unfold letters
  rw [List.reverse_append]
  exact if_pos h

theorem opening_concat (trace : Bool) (log : List Event) (e : Event) :
    opening trace (log ++ [e]) = match e with
      | .asked free => (opening trace log).or (if asksForLog trace log then none else some free)
      | .heard _ => none
      | _ => opening trace log := by
  cases e <;> simp [opening, openingOf]

theorem asksForLog_concat (trace : Bool) (log : List Event) (e : Event) :
    asksForLog trace (log ++ [e]) =
      (e.isNote && 3 * TraceLog.capacity / 4 ≤ loggedNotes trace (log ++ [e])) := by
  simp [asksForLog]

theorem opening_asked_for_log (ho : opening trace log = none) (ha : asksForLog trace log = true)
    (free : Bool) : opening trace (log ++ [.asked free]) = none := by
  rw [opening_concat, ho, ha]
  rfl

theorem opening_neutral {free : Bool} (h : opening trace log = some free)
    (he : e.neutral = true) : opening trace (log ++ [e]) = some free := by
  rw [opening_concat]
  cases e with
  | heard => simp [Event.neutral] at he
  | asked => simp [h]
  | _ => exact h

theorem Refused.neutral (h : Refused own trace log) (he : e.neutral = true) :
    Refused own trace (log ++ [e]) := by
  intro howed
  rw [letters_neutral he] at howed
  exact opening_neutral (h howed) he

/-- What is kept on record at all times but between a request and its sample. -/
structure Correct (own : Identity) (trace : Bool) (log : List Event) : Prop where
  answered : Answered (letters own log)
  mannered : Throughout (Mannered own trace) log
  sampled : ¬ Unsampled own log

theorem not_unsampled_of_ne (h : ∀ r, e ≠ .heard r) : ¬ Unsampled own (log ++ [e]) := by
  rintro ⟨p, hp, -⟩
  exact h (.frame p) (by simpa using hp)

theorem Correct.neutral (h : Correct own trace log) (he : e.neutral = true) :
    Correct own trace (log ++ [e]) := by
  have hheard : ∀ r, e ≠ .heard r := by
    rintro r rfl
    simp [Event.neutral] at he
  refine ⟨?_, throughout_concat.2 ⟨h.mannered, ?_⟩, not_unsampled_of_ne hheard⟩
  · rw [letters_neutral he]
    exact h.answered
  · exact ⟨fun hu => absurd hu h.sampled, fun r hr => absurd hr (hheard r)⟩

theorem Correct.neutrals {es : List Event} (h : Correct own trace log)
    (hes : ∀ e ∈ es, e.neutral = true) : Correct own trace (log ++ es) ∧
      letters own (log ++ es) = letters own log ∧
      (Refused own trace log → Refused own trace (log ++ es)) ∧
      ∀ free, opening trace log = some free → opening trace (log ++ es) = some free := by
  induction es generalizing log with
  | nil =>
    rw [List.append_nil]
    exact ⟨h, rfl, id, fun _ => id⟩
  | cons e es ih =>
    have he := hes e List.mem_cons_self
    obtain ⟨hc, hl, hr, ho⟩ := ih (h.neutral he) fun e he => hes e (List.mem_cons_of_mem _ he)
    rw [List.append_assoc, List.singleton_append] at hc hl hr ho
    exact ⟨hc, hl.trans (letters_neutral he), fun h => hr (h.neutral he),
      fun free h => ho free (opening_neutral h he)⟩

theorem Correct.heard {r : Reception} (h : Correct own trace log) (hr : Refused own trace log)
    (hno : ∀ p, r = .frame p → ¬ Requests own p.header) :
    Correct own trace (log ++ [.heard r]) := by
  refine ⟨?_, throughout_concat.2 ⟨h.mannered, ?_⟩, ?_⟩
  · rw [letters_heard]
    exact h.answered
  · exact ⟨fun hu => absurd hu h.sampled, fun _ _ => hr⟩
  · rintro ⟨p, hp, hreq⟩
    exact hno p (by simpa using hp) hreq

theorem Correct.heard_sampled {p : Packet} {signal : UInt8} (h : Correct own trace log)
    (hr : Refused own trace log) :
    Correct own trace (log ++ [.heard (.frame p)] ++ [.sampled signal]) := by
  refine ⟨?_, ?_, not_unsampled_of_ne nofun⟩
  · rw [letters_sampled]
    split
    · exact h.answered
    · exact h.answered
  · refine throughout_concat.2 ⟨throughout_concat.2 ⟨h.mannered, ?_⟩, ?_⟩
    · exact ⟨fun hu => absurd hu h.sampled, fun _ _ => hr⟩
    · exact ⟨fun _ => ⟨signal, rfl⟩, nofun⟩

theorem Correct.answer {t : Transmission} (h : Correct own trace log)
    (ht : owed (letters own log) = some t) (hp : t.purpose = .ack) :
    Correct own trace (log ++ [.sent t]) := by
  refine ⟨?_, throughout_concat.2 ⟨h.mannered, fun hu => absurd hu h.sampled, nofun⟩,
    not_unsampled_of_ne nofun⟩
  rw [letters_answer hp]
  exact ⟨ht, h.answered⟩

end Record

variable {W : Type}

structure Corresponds (n : Node (Recorded W)) : Prop where
  supervised : Supervised n
  correct : Correct n.identity n.settings.trace n.world.log
  pending : n.pendingAck.map PendingAck.transmission = owed (letters n.identity n.world.log)

/-- In a poll, after a frame was asked for and before the medium was asked for a transmission. -/
structure Attentive (n : Node (Recorded W)) : Prop extends Corresponds n where
  unopened : opening n.settings.trace n.world.log = none
  unasked : asksForLog n.settings.trace n.world.log = false

variable [Medium W] [Clock W] [SignalSource W] {n n' : Node (Recorded W)}

omit [SignalSource W] in
theorem respects_neutral : Respects (· ≠ .ack) (fun r r' : Recorded W =>
    ∃ es, r'.log = r.log ++ es ∧ ∀ e ∈ es, e.neutral = true) where
  refl r := ⟨[], (List.append_nil _).symm, nofun⟩
  trans := by
    rintro u v w ⟨es, hv, he⟩ ⟨fs, hw, hf⟩
    refine ⟨es ++ fs, by rw [hw, hv, List.append_assoc], ?_⟩
    exact fun e h => (List.mem_append.1 h).elim (he e) (hf e)
  configure _ _ _ := ⟨[_], rfl, by simp [Event.neutral]⟩
  canSend _ := ⟨[_], rfl, by simp [Event.neutral]⟩
  transmit ht hs := ⟨[_], Recorded.log_transmit hs, by simpa [Event.neutral] using ht⟩
  noted _ _ := ⟨[_], rfl, by simp [Event.neutral]⟩
  now _ := ⟨[_], rfl, by simp [Event.neutral]⟩
  pause _ := ⟨[], (List.append_nil _).symm, nofun⟩

theorem Corresponds.errands (h : Corresponds n) (he : Errands n n') : Corresponds n' ∧
    (Refused n.identity n.settings.trace n.world.log →
      Refused n'.identity n'.settings.trace n'.world.log) ∧
    ∀ free, opening n.settings.trace n.world.log = some free →
      opening n'.settings.trace n'.world.log = some free := by
  obtain ⟨hi, hs⟩ := Moves.steady he.moves
  obtain ⟨es, hlog, hes⟩ := respects_neutral.errands nofun (.inl nofun) he
  obtain ⟨hc, hl, hr, ho⟩ := h.correct.neutrals hes
  rw [← hlog] at hc hl hr ho
  refine ⟨⟨h.supervised.moves he.moves, ?_, ?_⟩, ?_, ?_⟩
  · rw [hi, hs]
    exact hc
  · rw [he.keeps.2, hi, hl]
    exact h.pending
  · rw [hi, hs]
    exact hr
  · rw [hs]
    exact ho

omit [Medium W] [Clock W] [SignalSource W] in
theorem Corresponds.attend {p : Packet} {signal : UInt8} (h : Corresponds n)
    (hr : Refused n.identity n.settings.trace n.world.log) (hsup : Supervised n')
    (hi : n'.identity = n.identity) (hs : n'.settings = n.settings)
    (hlog : n'.world.log = n.world.log ++ [.heard (.frame p)] ++ [.sampled signal])
    (hp : n'.pendingAck = if Requests n.identity p.header then
      some ⟨.ackFor p.header.node n.identity.node, signal⟩ else n.pendingAck) :
    Attentive n' := by
  refine ⟨⟨hsup, ?_, ?_⟩, ?_, ?_⟩
  · rw [hi, hs, hlog]
    exact h.correct.heard_sampled hr
  · rw [hi, hlog, letters_sampled, hp]
    split
    · rfl
    · exact h.pending
  · rw [hs, hlog, opening_concat]
    exact opening_concat ..
  · rw [hs, hlog, asksForLog_concat]
    rfl

theorem Corresponds.hears {delivered : Option UInt8} (h : Corresponds n)
    (hr : Refused n.identity n.settings.trace n.world.log) (hh : Hears n delivered n') :
    Attentive n' := by
  have hsup := h.supervised.move hh.move
  cases hh with
  | ignore r w hrec hno =>
    have hlog := Recorded.log_receive hrec
    have hnone : ∀ p, r = .frame p → ¬ Requests n.identity p.header :=
      fun p hp hreq => (hno p hp).1 ⟨hreq.1, hreq.2.1⟩
    refine ⟨⟨hsup, ?_, ?_⟩, ?_, ?_⟩
    · exact hlog ▸ h.correct.heard hr hnone
    · exact h.pending.trans (by rw [hlog, letters_heard])
    · show opening n.settings.trace w.log = none
      rw [hlog, opening_concat]
    · show asksForLog n.settings.trace w.log = false
      rw [hlog, asksForLog_concat]
      rfl
  | deliver p w hrec ha =>
    have hlog := Recorded.log_sample (r := w)
    rw [Recorded.log_receive hrec] at hlog
    have hreq : Requests n.identity p.header ↔ p.header.wantsAck = true :=
      ⟨fun hreq => hreq.2.2, fun hw => ⟨ha.1, ha.2, hw⟩⟩
    refine h.attend hr hsup rfl rfl hlog ?_
    simp only [hreq]
    rfl
  | settle p w hrec hs =>
    have hlog := Recorded.log_sample (r := w)
    rw [Recorded.log_receive hrec] at hlog
    have hno : ¬ Requests n.identity p.header := by
      intro hreq
      exact absurd hreq.2.1 (by simp [hs.2.1])
    exact h.attend hr hsup rfl rfl hlog (if_neg hno).symm

omit [Medium W] [Clock W] [SignalSource W] in
theorem asksForLog_noted (h : NotesOnRecord n) (code : UInt8) :
    asksForLog n.settings.trace (n.world.log ++ [.noted code]) =
      (n.trace.push code).nearlyFull := by
  rw [asksForLog_concat, ← notes_on_record_push h]
  rfl

theorem Attentive.noting {code : UInt8} (h : Attentive n) (hn : Noting code n n') :
    Attentive n' := by
  have hc := (h.errands (.single (.note code hn))).1
  have hasks := asksForLog_noted h.supervised.notes code
  have hnoted : opening n.settings.trace (n.world.log ++ [.noted code]) = none := by
    rw [opening_concat]
    exact h.unopened
  cases hn with
  | kept hfull => exact ⟨hc, hnoted, hasks.trans hfull⟩
  | held hfull =>
    have hlog := Recorded.log_canSend (r := Medium.noted n.world code)
    rw [Recorded.log_noted] at hlog
    refine ⟨hc, ?_, ?_⟩
    · rw [hlog]
      exact opening_asked_for_log hnoted (hasks.trans hfull) _
    · rw [hlog, asksForLog_concat]
      rfl
  | shipped w hfull _ ht =>
    have hlog := Recorded.log_transmit ht
    rw [Recorded.log_canSend, Recorded.log_noted] at hlog
    refine ⟨hc, ?_, ?_⟩
    · rw [hlog, opening_concat]
      exact opening_asked_for_log hnoted (hasks.trans hfull) _
    · rw [hlog, asksForLog_concat]
      rfl

theorem Attentive.remarks (h : Attentive n) (hr : Remarks n n') : Attentive n' := by
  induction hr with
  | refl => exact h
  | tail _ hn ih =>
    obtain ⟨code, hn⟩ := hn
    exact ih.noting hn

theorem Attentive.starts (h : Attentive n) (hs : Starts n n') : Corresponds n' ∧
    Refused n'.identity n'.settings.trace n'.world.log := by
  have hasked (free : Bool) :
      opening n.settings.trace (n.world.log ++ [.asked free]) = some free := by
    rw [opening_concat, h.unopened, h.unasked]
    rfl
  cases hs with
  | unowing hnone hr =>
    have hc := h.toCorresponds.errands hr.errands
    refine ⟨hc.1, hc.2.1 fun hsome => ?_⟩
    rw [← h.pending, hnone] at hsome
    cases hsome
  | answer ack w hack hfree ht =>
    have hlog := Recorded.log_transmit ht
    rw [Recorded.log_canSend, hfree] at hlog
    have hmove : Move n { n with world := w, pendingAck := none } := .answer n ack w hack hfree ht
    have howed : owed (letters n.identity (n.world.log ++ [.asked true])) =
        some ack.transmission := by
      rw [letters_neutral rfl, ← h.pending, hack]
      rfl
    have hletters : letters n.identity w.log = .answer ack.transmission ::
        letters n.identity (n.world.log ++ [.asked true]) := by
      rw [hlog]
      exact letters_answer rfl
    refine ⟨⟨h.supervised.move hmove, ?_, ?_⟩, ?_⟩
    · exact hlog ▸ (h.correct.neutral (e := .asked true) rfl).answer howed rfl
    · show none = owed (letters n.identity w.log)
      rw [hletters]
      rfl
    · show Refused n.identity n.settings.trace w.log
      rw [Refused, hletters]
      exact nofun
  | refused ack hack hfree hr =>
    have hmove : Errand n { n with world := (Medium.canSend n.world).2 } := .refuse n hfree
    have hlog := Recorded.log_canSend (r := n.world)
    rw [hfree] at hlog
    obtain ⟨hc, -, -⟩ := h.toCorresponds.errands (.single hmove)
    obtain ⟨hc', hr, -⟩ := hc.errands hr.errands
    refine ⟨hc', hr fun _ => ?_⟩
    show opening n.settings.trace (Medium.canSend n.world).2.log = some false
    rw [hlog]
    exact hasked false

/-- What the record says between polls. -/
structure Answering (n : Node (Recorded W)) : Prop extends Corresponds n where
  refused : Refused n.identity n.settings.trace n.world.log

omit [Medium W] [Clock W] [SignalSource W] in
theorem Answering.start (w : W) (identity : Identity) (settings : Settings) (capacity : Nat) :
    (startRecorded w identity settings capacity).Answering :=
  ⟨⟨.start .., ⟨trivial, nofun, nofun⟩, rfl⟩, nofun⟩

theorem Answering.errands (h : Answering n) (he : Errands n n') : Answering n' := by
  obtain ⟨hc, hr, -⟩ := h.toCorresponds.errands he
  exact ⟨hc, hr h.refused⟩

theorem Answering.pass {delivered : Option UInt8} (h : Answering n) (hp : Pass n delivered n') :
    Answering n' := by
  cases hp with
  | off => exact h
  | on _ hships hhears hremarks hstarts =>
    have hshipped := h.errands hships.errands
    have hheard := hshipped.toCorresponds.hears hshipped.refused hhears
    obtain ⟨hc, hr⟩ := (hheard.remarks hremarks).starts hstarts
    exact ⟨hc, hr⟩

omit [Medium W] [Clock W] [SignalSource W] in
theorem Answering.of_log (h : Answering n) (hp : n'.pendingAck = n.pendingAck)
    (hi : n'.identity = n.identity) (hs : n'.settings = n.settings) (ht : n'.trace = n.trace)
    (hl : n'.world.log = n.world.log) : Answering n' := by
  refine ⟨⟨⟨⟨?_, ?_⟩, ?_⟩, ?_, ?_⟩, ?_⟩
  · rw [ht, hs, h.supervised.notes.enabled]
  · rw [ht, hs, hl, h.supervised.notes.notes]
  · rw [hs, hl]
    exact h.supervised.contract
  · rw [hi, hs, hl]
    exact h.correct
  · rw [hp, hi, hl, h.pending]
  · rw [hi, hs, hl]
    exact h.refused

theorem Answering.passes {result : FlushResult} (h : Answering n) (hp : Passes n result n') :
    Answering n' := by
  induction hp with
  | drained => exact h
  | delivered _ hp => exact h.pass hp
  | stuck _ hp => exact h.pass hp
  | again _ hp _ ih => exact ih ((h.pass hp).of_log rfl rfl rfl rfl rfl)

theorem Answering.performs {c : Command} {a : Answer} (h : Answering n)
    (hp : Performs n c a n') : Answering n' := by
  cases hp with
  | poll hp => exact h.pass hp
  | flush allowance hf =>
    cases hf with
    | idle _ hp => exact h.pass hp
    | busy _ hp => exact h.passes hp
  | errand he _ hm =>
    obtain ⟨hw, ht, hp⟩ := he.keeps
    exact (h.of_log hp he.steady.1 he.steady.2 ht (by rw [hw])).errands hm

theorem Execution.answering {n₀ : Node (Recorded W)} {turns : List (Turn W)}
    (run : Execution n₀ turns n) (hs : n₀.Sound) (h : n₀.Answering) : n.Answering := by
  induction run with
  | start => exact h
  | turn c a prior hr ih =>
    exact ih.performs ((perform_performs c (prior.sound hs).count_zero).of_run_eq hr).2
  | drift w _ ih => exact ih.of_log rfl rfl rfl rfl rfl

/-- In every run each acknowledgement sent is that of the newest request, and none is sent twice, so
they are a part of those that the requests determine, in order. The one that is pending is owed: it
is that of the newest request. Every request is sampled at once, and no poll ends with an
acknowledgement still owed unless the medium was asked for it and was taken. -/
theorem Execution.answers_requests {w : W} {identity : Identity} {settings : Settings}
    {capacity : Nat} {turns : List (Turn W)}
    (run : Execution (startRecorded w identity settings capacity) turns n) :
    Answered (letters identity n.world.log) ∧
      ((letters identity n.world.log).filterMap Letter.answer?).Sublist
        ((letters identity n.world.log).filterMap Letter.request?) ∧
      n.pendingAck.map PendingAck.transmission = owed (letters identity n.world.log) ∧
      Throughout (Mannered identity settings.trace) n.world.log ∧
      ¬ Unsampled identity n.world.log ∧ Refused identity settings.trace n.world.log := by
  have hs : (startRecorded w identity settings capacity).Sound := .start ..
  have hstart : (startRecorded w identity settings capacity).Answering :=
    ⟨⟨.start .., ⟨trivial, nofun, nofun⟩, rfl⟩, nofun⟩
  have h := run.answering hs hstart
  obtain ⟨hi, hset⟩ := run.steady hs
  have hi : n.identity = identity := hi
  have hset : n.settings = settings := hset
  rw [← hi, ← hset]
  exact ⟨h.correct.answered, h.correct.answered.sublist, h.pending, h.correct.mannered,
    h.correct.sampled, h.refused⟩

def receiving (signal : UInt8) (busy : Bool) (headers : List Header) : Happening Bench.World :=
  .drift {
    carrier := .scripted { busy, inbound := headers.map fun header => .frame { header } }
    signal := .steady signal }

def answeredRequests : List (Happening Bench.World) :=
  [receiving 7 true [⟨0x25⟩], .command .poll, receiving 9 true [⟨0x04⟩], .command .poll,
    receiving 9 false [], .command .poll, receiving 3 true [⟨0x26⟩, ⟨0x27⟩], .command .poll,
    .command .poll]

theorem answers_requests_of_busy_medium : ∃ r,
    play (benchStart { trace := true }) answeredRequests = some r ∧
      letters {} r.2.world.log = [.request ⟨.ack, ⟨0xC7⟩, [3]⟩, .request ⟨.ack, ⟨0xC6⟩, [3]⟩,
        .answer ⟨.ack, ⟨0xC5⟩, [7]⟩, .request ⟨.ack, ⟨0xC5⟩, [7]⟩] ∧
      r.2.pendingAck.map PendingAck.transmission = some ⟨.ack, ⟨0xC7⟩, [3]⟩ ∧
      opening true r.2.world.log = some false := by
  have hrun : (play (benchStart { trace := true }) answeredRequests).any (fun r =>
      letters {} r.2.world.log = [.request ⟨.ack, ⟨0xC7⟩, [3]⟩, .request ⟨.ack, ⟨0xC6⟩, [3]⟩,
        .answer ⟨.ack, ⟨0xC5⟩, [7]⟩, .request ⟨.ack, ⟨0xC5⟩, [7]⟩]) = true := by
    decide +kernel
  obtain ⟨r, hr, hd⟩ := (Option.any_eq_true ..).1 hrun
  have hletters := of_decide_eq_true hd
  obtain ⟨-, -, hpending, -, -, hrefused⟩ := (Execution.of_play hr).answers_requests
  rw [hletters] at hpending
  exact ⟨r, hr, hletters, hpending, hrefused (by rw [hletters]; rfl)⟩

end Node

end StarNet
