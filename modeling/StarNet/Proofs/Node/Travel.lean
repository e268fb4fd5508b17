import StarNet.Proofs.Node.Pass

/-!
Every program of a node is a series of moves, in the stages that belong to it. One statement for
each program, from the notes up to the commands; later proofs look at stages and moves only.
-/
namespace StarNet.Node

variable {W α β : Type} [Medium W] [Clock W] [SignalSource W] {o n : Node W}

theorem Travels.pure {a : α} {Q : α → Node W → Prop} (hm : Moves o n) (hq : Q a n) :
    Travels o (pure a) n Q := ⟨hm, hq⟩

theorem Travels.imp {x : NodeM W α} {Q Q' : α → Node W → Prop} (h : Travels o x n Q)
    (hq : ∀ a n', Q a n' → Q' a n') : Travels o x n Q' :=
  Outcome.imp h (fun a n' _ h => ⟨h.1, hq a n' h.2⟩) fun _ h => h

theorem Travels.bind {x : NodeM W α} {f : α → NodeM W β} {Q : α → Node W → Prop}
    {R : β → Node W → Prop} (hx : Travels o x n Q)
    (hf : ∀ a m, Moves o m → Q a m → Travels o (f a) m R) : Travels o (x >>= f) n R :=
  Outcome.bind hx fun a m h => hf a m h.1 h.2

theorem Travels.of_outcome {x : NodeM W α} {Q : α → Node W → Prop} {E : Fault → Prop}
    (h : Moves o n) (hx : Outcome x n Q E) (hq : ∀ a n', Q a n' → Moves n n') : Travels o x n Q :=
  hx.imp (fun a n' _ hq' => ⟨h.trans (hq a n' hq'), hq'⟩) fun _ _ => trivial

def Noted (n n' : Node W) : Prop := ∃ w t, n' = { n with world := w, trace := t }

omit [Medium W] [Clock W] [SignalSource W] in
theorem Noted.refl (n : Node W) : n.Noted n := ⟨n.world, n.trace, rfl⟩

omit [Medium W] [Clock W] [SignalSource W] in
theorem Noted.trans {m k : Node W} (h : n.Noted m) (h' : m.Noted k) : n.Noted k := by
  obtain ⟨w, t, rfl⟩ := h
  obtain ⟨w', t', rfl⟩ := h'
  exact ⟨w', t', rfl⟩

def Notes (x : NodeM W Unit) (n : Node W) : Prop :=
  Outcome x n (fun _ n' => Remarks n n') (MediumFails W)

omit [Clock W] [SignalSource W] in
theorem Notes.bind {x y : NodeM W Unit} (hx : Notes x n) (hy : ∀ m, Notes y m) :
    Notes (do x; y) n :=
  Outcome.bind hx fun _ m h => Outcome.imp (hy m) (fun _ _ _ h' => h.trans h') fun _ h => h

omit [Clock W] [SignalSource W] in
theorem shipTrace_outcome (n : Node W) (force : Bool) :
    Outcome (shipTrace force) n (fun _ n' => Ships force n n') (MediumFails W) := by
  unfold shipTrace
  rw [outcome_bind, outcome_get]
  cases hp : n.trace.pending? force with
  | none => exact .undue n hp
  | some payload =>
    simp only [outcome_bind, outcome_canSend]
    cases hf : (Medium.canSend n.world).1 with
    | false => exact .held n payload hp hf
    | true =>
      simp only [if_true, outcome_bind, outcome_get, outcome_transmit, outcome_modify]
      exact ⟨fun w hw => .shipped n payload w hp hf hw, fun f hf => ⟨_, _, hf⟩⟩

omit [Clock W] [SignalSource W] in
theorem Ships.noted {n n' : Node W} {force : Bool} (h : Ships force n n') : n.Noted n' := by
  cases h <;> exact ⟨_, _, rfl⟩

theorem shipTrace_travels (force : Bool) (h : Moves o n) :
    Travels o (shipTrace force) n fun _ n' => Ships force n n' :=
  .of_outcome h (shipTrace_outcome n force) fun _ _ hs => hs.errands.moves

omit [Clock W] [SignalSource W] in
theorem noteCode_outcome (n : Node W) (code : UInt8) :
    Outcome (noteCode code) n (fun _ n' => Noting code n n') (MediumFails W) := by
  unfold noteCode
  simp only [outcome_bind, outcome_modify, outcome_get]
  cases hn : (n.trace.push code).nearlyFull with
  | false => exact .kept n hn
  | true =>
    simp only [if_true, shipTrace, outcome_bind, outcome_get,
      TraceLog.pending?_of_nearlyFull hn, outcome_canSend]
    cases hf : (Medium.canSend (Medium.noted n.world code)).1 with
    | false => exact .held n hn hf
    | true =>
      simp only [if_true, outcome_bind, outcome_get, outcome_transmit, outcome_modify]
      exact ⟨fun w hw => .shipped n w hn hf hw, fun f hf => ⟨_, _, hf⟩⟩

omit [Clock W] [SignalSource W] in
theorem Noting.noted {n' : Node W} {code : UInt8} (h : Noting code n n') : n.Noted n' := by
  cases h <;> exact ⟨_, _, rfl⟩

omit [Clock W] [SignalSource W] in
theorem Remarks.noted {n' : Node W} (h : Remarks n n') : n.Noted n' := by
  induction h with
  | refl => exact .refl n
  | tail _ h ih =>
    obtain ⟨code, h⟩ := h
    exact ih.trans h.noted

omit [SignalSource W] in
theorem Launch.keeps {n' : Node W} (h : Launch n n') :
    n'.received = n.received ∧ n'.pendingAck = n.pendingAck := by
  cases h <;> exact ⟨rfl, rfl⟩

omit [SignalSource W] in
theorem Errand.keeps {n' : Node W} (h : Errand n n') :
    n'.received = n.received ∧ n'.pendingAck = n.pendingAck := by
  cases h with
  | note code hn =>
    obtain ⟨w, t, rfl⟩ := hn.noted
    exact ⟨rfl, rfl⟩
  | first _ _ hl => exact hl.keeps
  | again deadline _ _ _ _ h₁ h₂ hl =>
    obtain ⟨w, t, rfl⟩ := h₁.noted.trans h₂.noted
    exact hl.keeps
  | _ => exact ⟨rfl, rfl⟩

omit [SignalSource W] in
theorem Errands.keeps {n' : Node W} (h : Errands n n') :
    n'.received = n.received ∧ n'.pendingAck = n.pendingAck := by
  induction h with
  | refl => exact ⟨rfl, rfl⟩
  | tail _ h ih => exact ⟨h.keeps.1.trans ih.1, h.keeps.2.trans ih.2⟩

omit [SignalSource W] in
theorem Starts.received {n' : Node W} (h : Starts n n') : n'.received = n.received := by
  cases h with
  | unowing _ hr => exact hr.errands.keeps.1
  | answer => rfl
  | refused _ _ _ hr => exact hr.errands.keeps.1

omit [Clock W] [SignalSource W] in
theorem noteCode_notes (n : Node W) (code : UInt8) : Notes (noteCode code) n :=
  Outcome.imp (noteCode_outcome n code) (fun _ _ _ h => .single ⟨code, h⟩) fun _ h => h

omit [Clock W] [SignalSource W] in
theorem note_notes (n : Node W) (mark : Mark) : Notes (note mark) n := noteCode_notes n mark.code

omit [Clock W] [SignalSource W] in
theorem noteDepth_outcome (n : Node W) :
    Outcome noteDepth n (fun _ n' => Noting n.depthCode n n') (MediumFails W) := by
  unfold noteDepth
  rw [outcome_bind, outcome_get]
  exact noteCode_outcome n n.depthCode

omit [Clock W] [SignalSource W] in
theorem noteDepth_notes (n : Node W) : Notes noteDepth n :=
  Outcome.imp (noteDepth_outcome n) (fun _ _ _ h => .single ⟨_, h⟩) fun _ h => h

omit [Clock W] [SignalSource W] in
theorem note_depth_notes (n : Node W) (mark : Mark) : Notes (do note mark; noteDepth) n :=
  (note_notes n mark).bind noteDepth_notes

omit [Clock W] [SignalSource W] in
theorem initRadio_outcome (n : Node W) (mode : RadioMode) :
    Outcome (initRadio mode) n
      (fun _ n' => n' = n ∨ Remarks { n with world := Medium.configure n.world n.identity mode } n')
      (MediumFails W) := by
  unfold initRadio
  rw [outcome_bind, outcome_get]
  split
  · simp only [outcome_bind, outcome_set]
    exact (note_notes _ .mediumReady).imp (fun _ _ _ hr => .inr hr) fun _ hf => hf
  · exact .inl rfl

theorem initRadio_travels (mode : RadioMode) (h : Moves o n) :
    Travels o (initRadio mode) n fun _ n' => Errands n n' := by
  refine .of_outcome h ((initRadio_outcome n mode).imp ?_ fun _ hf => hf) fun _ _ he => he.moves
  rintro _ n' - (rfl | hr)
  · exact .refl
  · exact .head (.configure n mode) hr.errands

omit [SignalSource W] in
theorem sendHead_outcome {p : Packet} (hp : n.queue.head? = some p) :
    Outcome sendHead n (fun _ n' => Launches n n') (MediumFails W) := by
  have close : ∀ m, Launch n m →
      Outcome (do note .sent; noteDepth) m (fun _ n' => Launches n n') (MediumFails W) :=
    fun m hl => (note_depth_notes m .sent).imp (fun _ _ _ hr => ⟨m, hl, hr⟩) fun _ hf => hf
  unfold sendHead
  simp only [outcome_bind, outcome_get, hp, outcome_transmit]
  refine ⟨?_, fun f hf => ⟨_, _, hf⟩⟩
  intro w hw
  by_cases ha : p.header.wantsAck = true ∧ n.lastSend = false
  · obtain ⟨ha, hs⟩ := ha
    have hc : n.sendCount ≠ 255 := by
      intro hc
      have hsucc := toNat_sendCount_add_one hs
      rw [hc] at hsucc
      exact absurd hsucc (by decide)
    simp only [hs, Bool.false_eq_true, if_false] at hw
    simp only [hs, Bool.false_eq_true, if_false, ha, if_true, outcome_bind, awaitAck,
      outcome_get, hc, outcome_set, outcome_readClock, outcome_modify]
    exact (outcome_bind _ _).1 (close _ (.await n p w hp ha hs hw))
  · have hh : (if n.lastSend then p.header.withoutAck else p.header) = p.header.withoutAck := by
      split
      · rfl
      · rename_i hs
        refine (Header.withoutAck_of_wantsAck_eq_false ?_).symm
        simpa [hs] using ha
    rw [hh] at hw ⊢
    simp only [Header.wantsAck_withoutAck, Bool.false_eq_true, if_false, outcome_bind, dropHead,
      outcome_modify]
    refine (outcome_bind _ _).1 (close _ (.depart n p w hp ?_ hw))
    intro hw
    simpa [hw] using ha

def Heard (n : Node W) (delivered : Option UInt8) (n' : Node W) : Prop :=
  ∃ m, Hears n delivered m ∧ Remarks m n'

omit [Clock W] in
theorem acceptData_outcome {p : Packet} {w : W} (hr : Medium.receive n.world = (.frame p, w))
    (ha : n.Accepts p.header) :
    Outcome (acceptData p.header) { n with world := w, received := p } (Heard n)
      (MediumFails W) := by
  have hd := Hears.deliver n p w hr ha
  have close {k : Node W} (hd : Hears n p.module? k) : Outcome (do
      note .received
      noteCode (traceDigit (p.module?.getD 0))
      noteDepth
      return p.module?) k (Heard n) (MediumFails W) := by
    apply Outcome.bind (note_notes k .received)
    intro _ m h₁
    apply Outcome.bind (noteCode_notes m _)
    intro _ m' h₂
    apply Outcome.bind (noteDepth_notes m')
    intro _ _ h₃
    exact ⟨k, hd, (h₁.trans h₂).trans h₃⟩
  unfold acceptData
  rw [outcome_bind, outcome_sampleSignal]
  unfold owing at hd
  split <;> rename_i hw
  · rw [if_pos hw] at hd
    simpa only [oweAck, outcome_bind, outcome_modify, outcome_get] using close hd
  · rw [if_neg hw] at hd
    simpa only [outcome_bind, outcome_get] using close hd

omit [Clock W] in
theorem acceptAck_outcome {p : Packet} {w : W} (hr : Medium.receive n.world = (.frame p, w))
    (hf : ¬ n.Foreign p.header) (hc : p.header.control = true) (ha : p.header.wantsAck = false) :
    Outcome (acceptAck p.header) { n with world := w, received := p }
      (fun _ n' => Heard n none n') (MediumFails W) := by
  have close (mark : Mark) {k : Node W} (hk : Hears n none k) :
      Outcome (do note mark; noteDepth) k (fun _ n' => Heard n none n') (MediumFails W) :=
    (note_depth_notes k mark).imp (fun _ _ _ hr => ⟨k, hk, hr⟩) fun _ hf => hf
  unfold acceptAck
  simp only [outcome_bind, outcome_get]
  split <;> rename_i hs
  · have hs : n.Settles p.header := ⟨hf, hc, ha, hs.1, by simpa using hs.2.1, hs.2.2⟩
    simp only [outcome_bind, outcome_sampleSignal, outcome_modify, dropHead]
    exact (outcome_bind _ _).1 (close .acked (.settle n p w hr hs))
  · have hi : Hears n none { n with world := w, received := p } := by
      refine .ignore n (.frame p) w hr fun q hq => ?_
      cases hq
      refine ⟨?_, fun hd => hs ⟨hd.2.2.2.1, by simpa using hd.2.2.2.2.1, hd.2.2.2.2.2⟩⟩
      intro hd
      simp [hd.2] at hc
    exact close .strayAck hi

omit [Clock W] in
theorem acceptFrame_outcome {p : Packet} {w : W} (hr : Medium.receive n.world = (.frame p, w)) :
    Outcome acceptFrame { n with world := w, received := p } (Heard n) (MediumFails W) := by
  have ignored (hi : ¬ n.Accepts p.header ∧ ¬ n.Settles p.header) :
      Hears n none { n with world := w, received := p } :=
    .ignore n (.frame p) w hr fun q hq => by cases hq; exact hi
  have hforeign : (p.header.directed && p.header.node != n.identity.node.number) = true ↔
      n.Foreign p.header := by simp [Foreign]
  unfold acceptFrame
  simp only [outcome_bind, outcome_get, hforeign]
  by_cases hf : n.Foreign p.header
  · have hi := ignored ⟨fun hd => hd.1 hf, fun hd => hd.1 hf⟩
    simp only [hf, if_true]
    exact ⟨_, hi, .refl⟩
  · cases hc : p.header.control with
    | false =>
      simp only [hf, if_false, Bool.not_false, if_true]
      exact acceptData_outcome hr ⟨hf, hc⟩
    | true =>
      cases ha : p.header.wantsAck with
      | true =>
        have hi := ignored ⟨fun hd => by simp [hd.2] at hc, fun hd => by simp [hd.2.2.1] at ha⟩
        simp only [hf, if_false, Bool.not_true, Bool.false_eq_true, if_true]
        exact Outcome.bind (note_notes _ .reserved) fun _ _ hr => ⟨_, hi, hr⟩
      | false =>
        simp only [hf, if_false, Bool.not_true, Bool.false_eq_true]
        exact Outcome.bind (acceptAck_outcome hr hf hc ha) fun _ _ hh => hh

omit [Clock W] in
theorem accept_outcome (n : Node W) :
    Outcome (do accept (← receive)) n (Heard n) (MediumFails W) := by
  rw [outcome_bind, outcome_receive]
  rcases hr : Medium.receive n.world with ⟨r, w⟩
  cases r with
  | nothing =>
    have hi : Hears n none _ := .ignore n .nothing w hr nofun
    exact ⟨_, hi, .refl⟩
  | badChecksum =>
    have hi : Hears n none _ := .ignore n .badChecksum w hr nofun
    exact Outcome.bind (note_notes _ .badChecksum) fun _ _ hr => ⟨_, hi, hr⟩
  | frame p => exact acceptFrame_outcome hr

theorem accept_travels (h : Moves o n) : Travels o (do accept (← receive)) n (Heard n) :=
  .of_outcome h (accept_outcome n) fun _ _ ⟨_, hhears, hremarks⟩ =>
    .head hhears.move hremarks.errands.moves

omit [SignalSource W] in
theorem resend_outcome (n : Node W) :
    Outcome resend n (fun _ n' => Resends n n') (BreaksOff n) := by
  unfold resend
  rw [outcome_bind, outcome_get]
  cases hq : n.queue.isEmpty with
  | true => exact .empty n hq
  | false =>
    obtain ⟨p, hp⟩ := Queue.exists_head hq
    simp only [Bool.false_eq_true, if_false]
    by_cases hc : n.sendCount = 0
    · simp only [if_pos hc, outcome_bind, outcome_canSend]
      cases hf : (Medium.canSend n.world).1 with
      | false => exact .held n hq hc hf
      | true =>
        exact (sendHead_outcome (n := { n with world := (Medium.canSend n.world).2 }) hp).imp
          (fun _ _ _ hl => .first hq hc hf hl) fun _ hf => .inl hf
    · have hpos : 0 < n.sendCount := UInt8.pos_iff_ne_zero.2 hc
      simp only [if_neg hc, outcome_bind, outcome_readClock, outcome_lift]
      refine ⟨?_, fun f hf => .inr ⟨hpos, hf⟩⟩
      intro deadline hd
      by_cases hdue : deadline ≤ (Clock.now n.world).1
      · simp only [hdue, if_true, outcome_bind, outcome_canSend]
        cases hf : (Medium.canSend (Clock.now n.world).2).1 with
        | false => exact .refused n deadline hq hpos hd hdue hf
        | true =>
          have hfail : ∀ f, MediumFails W f → BreaksOff n f := fun f hf => .inl hf
          simp only [if_true, outcome_bind]
          refine Outcome.imp (noteCode_outcome _ Mark.resent.code) ?_ hfail
          intro _ n₁ _ h₁
          refine Outcome.imp (noteDepth_outcome n₁) ?_ hfail
          intro _ n₂ _ h₂
          have hp₂ : n₂.queue.head? = some p := by
            obtain ⟨w, t, rfl⟩ := h₁.noted.trans h₂.noted
            exact hp
          exact (sendHead_outcome hp₂).imp
            (fun _ _ _ hl => .again deadline hq hpos hd hdue hf h₁ h₂ hl) hfail
      · simp only [hdue, if_false]
        exact .early n deadline hq hpos hd (UInt64.not_le.1 hdue)

omit [SignalSource W] in
theorem startTransmission_outcome (n : Node W) :
    Outcome startTransmission n (fun _ n' => Starts n n') (BreaksOff n) := by
  unfold startTransmission
  rw [outcome_bind, outcome_get]
  cases ha : n.pendingAck with
  | none => exact (resend_outcome n).imp (fun _ _ _ hr => .unowing ha hr) fun _ hf => hf
  | some ack =>
    simp only [outcome_bind, outcome_canSend]
    cases hf : (Medium.canSend n.world).1 with
    | false =>
      exact (resend_outcome { n with world := (Medium.canSend n.world).2 }).imp
        (fun _ _ _ hr => .refused ack ha hf hr) fun _ hf => hf
    | true =>
      simp only [if_true, sendAck, outcome_bind, outcome_modify, outcome_transmit]
      exact ⟨fun w hw => .answer n ack w ha hf hw, fun f hf => .inl ⟨_, _, hf⟩⟩

theorem Starts.moves {n' : Node W} (h : Starts n n') : Moves n n' := by
  cases h with
  | unowing _ hr => exact hr.errands.moves
  | answer ack w ha hf ht => exact .single (.answer n ack w ha hf ht)
  | refused _ _ hf hr => exact .head (.refuse n hf) hr.errands.moves

theorem startTransmission_travels (h : Moves o n) :
    Travels o startTransmission n fun _ n' => Starts n n' :=
  .of_outcome h (startTransmission_outcome n) fun _ _ hs => hs.moves

theorem poll_travels (h : Moves o n) : Travels o poll n (Pass n) := by
  unfold poll Travels
  rw [outcome_bind, outcome_get]
  split <;> rename_i he
  · apply Travels.bind (shipTrace_travels false h)
    intro _ n₁ h hships
    rw [← bind_assoc]
    apply Travels.bind (accept_travels h)
    intro delivered n₃ h hheard
    obtain ⟨n₂, hhears, hremarks⟩ := hheard
    exact (startTransmission_travels h).bind fun _ _ h hstarts =>
      .pure h (.on he hships hhears hremarks hstarts)
  · exact ⟨h, .off n (by simpa using he)⟩

/-- What a poll does first: the log is shipped if it is due, and one frame is heard. -/
def intake {W : Type} [Medium W] [SignalSource W] : NodeM W (Option UInt8) := do
  shipTrace false
  accept (← receive)

theorem poll_run {n : Node W} (h : n.enabled = true) : poll.run n = (do
    let delivered ← intake
    startTransmission
    return delivered).run n := by
  unfold poll intake
  change StateT.run (if n.enabled = true then _ else _) n = _
  rw [if_pos h]
  simp only [bind_assoc]

omit [Clock W] in
theorem intake_outcome (n : Node W) :
    Outcome intake n (fun delivered m => ∃ k, Ships false n k ∧ Heard k delivered m)
      (MediumFails W) := by
  refine Outcome.bind (shipTrace_outcome n false) fun _ k hships => ?_
  exact (accept_outcome k).imp (fun _ _ _ hheard => ⟨k, hships, hheard⟩) fun _ hf => hf

theorem intake_moves {n m : Node W} {delivered : Option UInt8}
    (h : intake.run n = .ok (delivered, m)) : Moves n m := by
  obtain ⟨k, hships, l, hhears, hremarks⟩ := (intake_outcome n).of_run_eq h
  exact hships.errands.moves.trans (.head hhears.move hremarks.errands.moves)

theorem poll_stages {n : Node W} (h : n.enabled = true) :
    Outcome poll n
      (fun delivered n' => ∃ m, intake.run n = .ok (delivered, m) ∧ Starts m n')
      (fun f => MediumFails W f ∨
        ∃ delivered m, intake.run n = .ok (delivered, m) ∧ BreaksOff m f) := by
  unfold Outcome
  rw [poll_run h]
  refine (outcome_bind _ _).2 ((intake_outcome n).imp ?_ fun _ hf => .inl hf)
  intro delivered m hrun _
  refine (outcome_bind _ _).2 ((startTransmission_outcome m).imp ?_ ?_)
  · intro _ n' _ hstarts
    exact ⟨m, hrun, hstarts⟩
  · intro f hf
    exact .inr ⟨delivered, m, hrun, hf⟩

theorem poll_run_disabled {n : Node W} (h : n.enabled = false) : poll.run n = .ok (none, n) := by
  unfold poll
  change StateT.run (if n.enabled = true then _ else _) n = _
  rw [h]
  rfl

theorem continueFlush_travels (h : Moves o n) :
    Travels o continueFlush n fun result n' =>
      n.busy = false ∧ result = some .drained ∧ n' = n ∨
        n.busy = true ∧ ∃ delivered, Pass n delivered n' ∧ result = delivered.map .delivered := by
  unfold continueFlush Travels
  rw [outcome_bind, outcome_get]
  split <;> rename_i hb
  · apply (poll_travels h).bind
    intro delivered _ h hp
    cases delivered <;> exact .pure h (.inr ⟨hb, _, hp, rfl⟩)
  · exact ⟨h, .inl ⟨by simpa using hb, rfl, rfl⟩⟩

theorem flushWithin_travels (allowance : Nat) (h : Moves o n) :
    Travels o (flushWithin allowance) n (Passes n) := by
  induction allowance generalizing n with
  | zero =>
    apply (continueFlush_travels h).bind
    intro result _ h hc
    obtain ⟨hb, rfl, rfl⟩ | ⟨hb, delivered, hp, rfl⟩ := hc
    · exact .pure h (.drained _ hb)
    · cases delivered with
      | none => exact .pure h (.stuck hb hp)
      | some => exact .pure h (.delivered hb hp)
  | succ allowance ih =>
    apply (continueFlush_travels h).bind
    intro result m h hc
    obtain ⟨hb, rfl, rfl⟩ | ⟨hb, delivered, hp, rfl⟩ := hc
    · exact .pure h (.drained _ hb)
    · cases delivered with
      | none =>
        refine Travels.bind (Q := fun _ k => k = { m with world := Clock.pause m.world })
          ⟨h.tail (.pause m), rfl⟩ ?_
        intro _ k h hk
        exact (ih h).imp fun _ _ hps => .again hb hp (hk ▸ hps)
      | some => exact .pure h (.delivered hb hp)

theorem flush_travels (allowance : Nat) (h : Moves o n) :
    Travels o (flush allowance) n (Flushes n) := by
  unfold flush Travels
  rw [outcome_bind, outcome_get]
  split <;> rename_i hb
  · exact (flushWithin_travels allowance h).imp fun _ _ hp => .busy hb hp
  · exact (poll_travels h).bind fun _ _ h hp => .pure h (.idle (by simpa using hb) hp)

omit [Medium W] [Clock W] [SignalSource W] in
/-- The header and the length under which a command offers the allocated buffer to the queue. -/
def Command.offer? (n : Node W) : Command → Option (Header × UInt8)
  | .send length ack => some ((Header.fromNode n.identity.node).withAck ack, length)
  | .broadcast length => some (.fromNode n.identity.node, length)
  | .sendRaw length header => some (header, length)
  | _ => none

/-- The packet that a command has put into the queue, if the answer says that it did. -/
def Command.entered {W : Type} (n : Node W) (c : Command) (a : Answer) : List Packet :=
  match c.offer? n, n.queue.allocate?, a with
  | some (header, length), some buffer, .queued (.ok _) => [⟨header, length, buffer⟩]
  | _, _, _ => []

/-- How a command begins: it may fill the first free slot, or commit it as a packet. -/
inductive Enters (c : Command) : Node W → List Packet → Node W → Prop where
  | nothing (n : Node W) : Enters c n [] n
  | fill (n : Node W) (change : Buffer → Buffer) : c = .allocate change →
      Enters c n [] { n with queue := n.queue.fill change }
  | packet (n : Node W) (header : Header) (length : UInt8) (buffer : Buffer) (q : Queue) :
      c.offer? n = some (header, length) → n.queue.push header length = .ok q →
      n.queue.allocate? = some buffer → length.toNat ≤ maxData →
      q.toList = n.queue.toList ++ [⟨header, length, buffer⟩] →
      Enters c n [⟨header, length, buffer⟩] { n with queue := q }

omit [Medium W] [Clock W] [SignalSource W] in
theorem Enters.of_push {c : Command} {header : Header} {length : UInt8} {q : Queue}
    (hc : c.offer? n = some (header, length)) (hq : n.queue.push header length = .ok q) :
    Enters c n (c.entered n (.queued (.ok ()))) { n with queue := q } := by
  obtain ⟨buffer, hb, hl, ht⟩ := Queue.toList_push hq
  have he : c.entered n (.queued (.ok ())) = [⟨header, length, buffer⟩] := by
    simp only [Command.entered, hc, hb]
  rw [he]
  exact .packet n header length buffer q hc hq hb hl ht

omit [Medium W] [Clock W] [SignalSource W] in
theorem Enters.keeps {c : Command} {ps : List Packet} {n' : Node W} (he : Enters c n ps n') :
    n'.world = n.world ∧ n'.trace = n.trace ∧ n'.pendingAck = n.pendingAck := by
  cases he <;> exact ⟨rfl, rfl, rfl⟩

omit [SignalSource W] in
theorem sendRaw_disabled {length : UInt8} {header : Header} (he : n.enabled = false) :
    (sendRaw length header).run n = .ok (.error .disabled, n) := by
  refine run_eq_ok ?_
  simp only [sendRaw, outcome_bind, outcome_get, he, Bool.false_eq_true, if_false, outcome_pure,
    and_self]

omit [SignalSource W] in
theorem sendRaw_refused {length : UInt8} {header : Header} {e : SendError} (he : n.enabled = true)
    (hq : n.queue.push header length = .error e) :
    (sendRaw length header).run n = .ok (.error e, n) := by
  refine run_eq_ok ?_
  simp only [sendRaw, outcome_bind, outcome_get, he, if_true, hq, outcome_pure, and_self]

omit [SignalSource W] in
theorem sendRaw_accepted {length : UInt8} {header : Header} {q : Queue} (he : n.enabled = true)
    (hq : n.queue.push header length = .ok q) :
    Outcome (sendRaw length header) n
      (fun a n' => a = .ok () ∧ ∃ m, Noting Mark.queued.code { n with queue := q } m ∧
        Dispatches m n') (MediumFails W) := by
  simp only [sendRaw, outcome_bind, outcome_get, he, if_true, hq, outcome_set]
  refine Outcome.imp (noteCode_outcome { n with queue := q } Mark.queued.code) ?_ fun _ hf => hf
  intro _ m _ hm
  obtain ⟨p, hp⟩ : ∃ p, m.queue.head? = some p := by
    obtain ⟨w, t, rfl⟩ := hm.noted
    exact Queue.exists_head (by simp [Queue.isEmpty, Queue.count_push hq])
  by_cases hone : m.queue.count = 1
  · rw [if_pos hone, outcome_bind, outcome_canSend]
    cases hf : (Medium.canSend m.world).1 with
    | true =>
      have hsend : Outcome sendHead { m with world := (Medium.canSend m.world).2 }
          (fun _ n' => Launches { m with world := (Medium.canSend m.world).2 } n')
          (MediumFails W) := sendHead_outcome hp
      exact hsend.bind fun _ n' hl => ⟨rfl, m, hm, .goes hone hf hl⟩
    | false =>
      have hnote : Outcome (note .held) { m with world := (Medium.canSend m.world).2 }
          (fun _ n' => Noting Mark.held.code { m with world := (Medium.canSend m.world).2 } n')
          (MediumFails W) := noteCode_outcome _ _
      exact hnote.bind fun _ n' hn => ⟨rfl, m, hm, .held hone hf hn⟩
  · rw [if_neg hone]
    exact ⟨rfl, m, hm, .behind m hone⟩

omit [SignalSource W] in
/-- A commit fails and leaves the node as it was, or the packet enters and errands follow. The first
launch of a packet that finds an empty queue counts from zero. -/
theorem sendRaw_outcome (length : UInt8) (header : Header)
    (hs : n.queue.count = 0 → n.sendCount = 0) :
    Outcome (sendRaw length header) n
      (fun a n' => (∃ e, a = .error e) ∧ n' = n ∨
        a = .ok () ∧ ∃ q, n.queue.push header length = .ok q ∧ Errands { n with queue := q } n')
      (MediumFails W) := by
  cases he : n.enabled with
  | false => exact .of_eq_ok (sendRaw_disabled he) (.inl ⟨⟨_, rfl⟩, rfl⟩)
  | true =>
    cases hq : n.queue.push header length with
    | error e => exact .of_eq_ok (sendRaw_refused he hq) (.inl ⟨⟨_, rfl⟩, rfl⟩)
    | ok q =>
      refine (sendRaw_accepted he hq).imp ?_ fun _ hf => hf
      rintro _ n' - ⟨rfl, m, hm, hd⟩
      refine .inr ⟨rfl, q, rfl, .head (.note _ hm) (hd.errands fun hone => ?_)⟩
      obtain ⟨w, t, rfl⟩ := hm.noted
      have hcount := Queue.count_push hq
      exact hs (Nat.succ.inj (hcount.symm.trans hone))

omit [SignalSource W] in
theorem send_run (n : Node W) (length : UInt8) (ack : Bool) : (send length ack).run n =
    (sendRaw length ((Header.fromNode n.identity.node).withAck ack)).run n := by
  unfold send
  rw [StateT.run_bind, StateT.run_get, pure_bind]

omit [SignalSource W] in
theorem broadcast_run (n : Node W) (length : UInt8) :
    (broadcast length).run n = (sendRaw length (.fromNode n.identity.node)).run n := by
  unfold broadcast
  rw [StateT.run_bind, StateT.run_get, pure_bind]

def Answer.module? : Answer → Option UInt8
  | .polled delivered => delivered
  | .flushed (.delivered m) => some m
  | _ => none

/-- What a command does. Only polls and flushes hear anything. -/
inductive Performs (n : Node W) : Command → Answer → Node W → Prop where
  | poll {delivered : Option UInt8} {n' : Node W} : Pass n delivered n' →
      Performs n .poll (.polled delivered) n'
  | flush {result : FlushResult} {n' : Node W} (allowance : Nat) : Flushes n result n' →
      Performs n (.flush allowance) (.flushed result) n'
  | errand {c : Command} {a : Answer} {m n' : Node W} : Enters c n (c.entered n a) m →
      a.module? = none → Errands m n' → Performs n c a n'

/-- Every command touches the free slots at most once, at its beginning, and goes on with moves. -/
theorem perform_performs (c : Command) (hs : n.queue.count = 0 → n.sendCount = 0) :
    Outcome (perform c) n
      (fun a n' => (∃ m, Enters c n (c.entered n a) m ∧ Moves m n') ∧ Performs n c a n')
      fun _ => True := by
  have commit (header : Header) (length : UInt8) (hc : c.offer? n = some (header, length)) :
      Outcome (do return Answer.queued (← sendRaw length header)) n
        (fun a n' => (∃ m, Enters c n (c.entered n a) m ∧ Moves m n') ∧ Performs n c a n')
        fun _ => True := by
    rw [outcome_bind]
    refine Outcome.imp (sendRaw_outcome length header hs) ?_ fun _ _ => trivial
    intro a n' _ h
    rcases h with ⟨⟨e, rfl⟩, rfl⟩ | ⟨rfl, q, hq, hm⟩
    · have he : Enters c n' (c.entered n' (.queued (.error e))) n' := by
        have hnone : c.entered n' (.queued (.error e)) = [] := by simp [Command.entered, hc]
        exact hnone ▸ .nothing n'
      exact ⟨⟨n', he, .refl⟩, .errand he rfl .refl⟩
    · exact ⟨⟨_, .of_push hc hq, hm.moves⟩, .errand (.of_push hc hq) rfl hm⟩
  have other {x : NodeM W Answer} (hc : c.offer? n = none)
      (hx : Travels n x n (Performs n c)) :
      Outcome x n
        (fun a n' => (∃ m, Enters c n (c.entered n a) m ∧ Moves m n') ∧ Performs n c a n')
        fun _ => True := by
    have he (a : Answer) : c.entered n a = [] := by simp [Command.entered, hc]
    exact Outcome.imp hx (fun a n' _ h => ⟨⟨n, he a ▸ .nothing n, h.1⟩, h.2⟩) fun _ h => h
  cases c with
  | allocate change =>
    simp only [perform, allocate, outcome_bind, outcome_get]
    split
    · have hfill : Enters (.allocate change) n [] _ := .fill n change rfl
      exact ⟨⟨_, hfill, .refl⟩, .errand hfill rfl .refl⟩
    · exact ⟨⟨n, .nothing n, .refl⟩, .errand (.nothing n) rfl .refl⟩
  | send length ack =>
    simpa only [perform, send, outcome_bind, outcome_get] using
      commit ((Header.fromNode n.identity.node).withAck ack) length rfl
  | broadcast length =>
    simpa only [perform, broadcast, outcome_bind, outcome_get] using
      commit (.fromNode n.identity.node) length rfl
  | sendRaw length header => exact commit header length rfl
  | poll => exact other rfl ((poll_travels .refl).bind fun _ _ h hp => .pure h (.poll hp))
  | flush allowance =>
    exact other rfl ((flush_travels allowance .refl).bind
      fun _ _ h hf => .pure h (.flush allowance hf))
  | shipTrace force =>
    exact other rfl ((shipTrace_travels force .refl).bind
      fun _ _ h hs => .pure h (.errand (.nothing n) rfl hs.errands))
  | initRadio mode =>
    exact other rfl ((initRadio_travels mode .refl).bind
      fun _ _ h hr => .pure h (.errand (.nothing n) rfl hr))

theorem perform_outcome (c : Command) (hs : n.queue.count = 0 → n.sendCount = 0) :
    Outcome (perform c) n
      (fun a n' => ∃ m, Enters c n (c.entered n a) m ∧ Moves m n') fun _ => True :=
  Outcome.imp (perform_performs c hs) (fun _ _ _ h => h.1) fun _ h => h

end StarNet.Node
