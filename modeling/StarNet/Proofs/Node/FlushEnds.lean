import StarNet.Proofs.Node.Tracing
import StarNet.Proofs.Node.Work

/-!
A flush comes to its end. If the medium stays free, hands over no more than some number of frames,
and the clock goes on without coming to its own end, the work of the node bounds how many pauses a
flush makes. It answers the one module that was heard on the way, or that all is sent.
-/
namespace StarNet.Node

section Programs

variable {W : Type} [Medium W] [Clock W] [SignalSource W] {n n' : Node W}

theorem continueFlush_of_idle (h : n.busy = false) :
    continueFlush.run n = .ok (some .drained, n) := by
  refine run_eq_ok ?_
  simp only [continueFlush, outcome_bind, outcome_get, h, Bool.false_eq_true, if_false,
    outcome_pure, and_self]

theorem continueFlush_of_poll {delivered : Option UInt8} (h : n.busy = true)
    (hp : poll.run n = .ok (delivered, n')) :
    continueFlush.run n = .ok (delivered.map .delivered, n') := by
  unfold continueFlush
  rw [StateT.run_bind]
  change StateT.run (if n.busy = true then _ else _) n = _
  rw [if_pos h, run_bind_ok hp]
  cases delivered <;> rfl

theorem flushWithin_of_answer {result : FlushResult}
    (h : continueFlush.run n = .ok (some result, n')) (allowance : Nat) :
    (flushWithin allowance).run n = .ok (result, n') := by
  cases allowance <;> (rw [flushWithin, run_bind_ok h]; rfl)

theorem flushWithin_of_none (h : continueFlush.run n = .ok (none, n')) (allowance : Nat) :
    (flushWithin (allowance + 1)).run n = (flushWithin allowance).run n'.paused := by
  rw [flushWithin, run_bind_ok h]
  rfl

theorem flush_of_busy (h : n.busy = true) (allowance : Nat) :
    (flush allowance).run n = (flushWithin allowance).run n := by
  unfold flush
  rw [StateT.run_bind]
  change StateT.run (if n.busy = true then _ else _) n = _
  rw [if_pos h]

theorem flush_of_idle {delivered : Option UInt8} (h : n.busy = false)
    (hp : poll.run n = .ok (delivered, n')) (allowance : Nat) :
    (flush allowance).run n = .ok (.ofPoll delivered, n') := by
  unfold flush
  rw [StateT.run_bind]
  change StateT.run (if n.busy = true then _ else _) n = _
  rw [if_neg (by simp [h]), run_bind_ok hp]
  rfl

end Programs

variable {W : Type}

/-- What a flush answers is the module of the one frame it heard for a module, or that there was no
such frame. -/
def AnswersHeard (n : Node (Recorded W)) (result : FlushResult) (n' : Node (Recorded W)) : Prop :=
  ∃ rs delivered, receptions n'.world.log = receptions n.world.log ++ rs ∧
    rs.filterMap (moduleHeard n.identity) = Option.toList delivered ∧ result = .ofPoll delivered

theorem AnswersHeard.drained {n : Node (Recorded W)} : AnswersHeard n .drained n :=
  ⟨[], none, (List.append_nil _).symm, rfl, rfl⟩

variable [Medium W] [Clock W] [SignalSource W] {n n' : Node (Recorded W)}

theorem Obliging.recorded {P : W → Prop} (h : Obliging P) :
    Obliging fun r : Recorded W => P r.surroundings where
  onward := {
    refl := fun r => h.onward.refl r.surroundings
    trans := fun huv hvw => h.onward.trans huv hvw
    configure := fun r => h.onward.configure r.surroundings
    canSend := fun r => h.onward.canSend r.surroundings
    transmit := fun {r r' t} _ ht => by
      obtain ⟨w, hw, rfl⟩ := Recorded.transmit_eq_ok ht
      exact h.onward.transmit trivial hw
    noted := fun r => h.onward.noted r.surroundings
    now := fun r => h.onward.now r.surroundings
    pause := fun r => h.onward.pause r.surroundings }
  receive r := h.receive r.surroundings
  sample r := h.sample r.surroundings
  enabled r := h.enabled r.surroundings
  free r := h.free r.surroundings
  advances r := h.advances r.surroundings

theorem poll_ends {P : Recorded W → Prop} (hP : Obliging P) (takes : ∀ f, ¬ MediumFails W f)
    (h : Underway P n)
    (hrange : clockOf n.world + n.settings.retryInterval.toNat < UInt64.size) :
    ∃ delivered n', poll.run n = .ok (delivered, n') ∧ Pass n delivered n' ∧ Moves n n' := by
  have hends : ∀ f, poll.run n ≠ .error f := by
    intro f hf
    rcases poll_breaks_off (hP.enabled n.world h.within) hf with hf | ⟨_, m, hm, hpos, hlate⟩
    · exact takes f hf
    · obtain ⟨htime, hpos⟩ := intake_send_time hm hpos
      obtain ⟨-, hlate⟩ := retryTime_error hlate
      rw [(Moves.steady (intake_moves hm)).2, htime] at hlate
      have hbound := Nat.add_le_add_right (h.timed hpos) n.settings.retryInterval.toNat
      exact absurd (Nat.le_trans hlate hbound) (Nat.not_le.2 hrange)
  obtain ⟨delivered, n', hrun⟩ := run_of_no_error hends
  obtain ⟨hmoves, hpass⟩ := (poll_travels .refl).of_run_eq hrun
  exact ⟨delivered, n', hrun, hpass, hmoves⟩

theorem AnswersHeard.of_pass {delivered : Option UInt8} (he : n.enabled = true)
    (h : Pass n delivered n') : AnswersHeard n (.ofPoll delivered) n' := by
  obtain ⟨r, hr, hd⟩ := h.hear_one he
  exact ⟨[r], delivered, hr, by cases delivered <;> simp [← hd], rfl⟩

theorem AnswersHeard.again {m : Node (Recorded W)} {result : FlushResult} (he : n.enabled = true)
    (hp : Pass n none m) (hi : m.identity = n.identity) (h : AnswersHeard m.paused result n') :
    AnswersHeard n result n' := by
  obtain ⟨r, hr, hd⟩ := hp.hear_one he
  obtain ⟨rs, delivered, hrs, hdelivered, hresult⟩ := h
  refine ⟨r :: rs, delivered, ?_, ?_, hresult⟩
  · rw [hrs, List.append_cons, ← hr]
    rfl
  · rw [List.filterMap_cons_none hd.symm, ← hi]
    exact hdelivered

/-- Passes come to an end while there is work, or frames that may still come in. -/
theorem flushWithin_ends {P : Recorded W → Prop} {limit : Nat} {interval : Ticks} (bound : Nat)
    (hP : Obliging P) (takes : ∀ f, ¬ MediumFails W f) (hs : n.Sound) (h : Underway P n)
    (hinterval : n.settings.retryInterval = interval)
    (hruns : ∀ i m, flushNode? i n = some m → arrivals m.world.log ≤ limit ∧
      clockOf m.world + interval.toNat < UInt64.size)
    (hbound : n.work + limit ≤ bound + arrivals n.world.log) :
    ∃ result n', (∀ allowance, bound ≤ allowance →
      (flushWithin allowance).run n = .ok (result, n')) ∧ AnswersHeard n result n' := by
  induction bound generalizing n with
  | zero =>
    have hidle : n.busy = false := by
      refine eq_false_of_ne_true fun hbusy => ?_
      have hwork := work_pos hs hbusy
      have harrivals := (hruns 0 n rfl).1
      omega
    exact ⟨.drained, n, fun a _ => flushWithin_of_answer (continueFlush_of_idle hidle) a, .drained⟩
  | succ bound ih =>
    cases hbusy : n.busy with
    | false =>
      exact ⟨.drained, n, fun a _ => flushWithin_of_answer (continueFlush_of_idle hbusy) a,
        .drained⟩
    | true =>
      have he : n.enabled = true := hP.enabled n.world h.within
      obtain ⟨delivered, k, hpoll, hpass, hmoves⟩ :=
        poll_ends hP takes h (hinterval.symm ▸ (hruns 0 n rfl).2)
      obtain ⟨hi, hset⟩ := Moves.steady hmoves
      have hcontinue := continueFlush_of_poll hbusy hpoll
      cases delivered with
      | some m =>
        exact ⟨.delivered m, k, fun a _ => flushWithin_of_answer hcontinue a, .of_pass he hpass⟩
      | none =>
        have hon : n.flushOn? = some k.paused := by rw [flushOn?, if_pos hbusy, hpoll]
        have hnext : ∀ i m, flushNode? i k.paused = some m →
            arrivals m.world.log ≤ limit ∧ clockOf m.world + interval.toNat < UInt64.size := by
          intro i m hm
          refine hruns (i + 1) m ?_
          rw [flushNode?, hon]
          exact hm
        obtain ⟨hk, hless⟩ := h.pass hP hs hbusy hpass (hinterval.symm ▸ (hnext 0 k.paused rfl).2)
        have hsk : k.paused.Sound := (hs.moves hmoves).in_world _
        obtain ⟨result, n', hends, hanswer⟩ := ih hsk hk (hset.symm ▸ hinterval) hnext (by
          have hlog : arrivals k.paused.world.log = arrivals k.world.log := rfl
          omega)
        refine ⟨result, n', ?_, hanswer.again he hpass hi⟩
        intro allowance hle
        cases allowance with
        | zero => exact absurd hle (Nat.not_succ_le_zero bound)
        | succ allowance =>
          rw [flushWithin_of_none hcontinue]
          exact hends allowance (Nat.le_of_succ_le_succ hle)

/-- In every run, a flush that begins in obliging surroundings ends if its medium takes all that it
is given, hands over no more than some number of frames in the meantime, and its clock stays far
enough from its last tick. However many more pauses it is allowed, it ends the same: with the module
of the one frame for a module that it heard, or drained if there was none. -/
theorem Execution.flush_ends {w : W} {identity : Identity} {settings : Settings}
    {capacity : Nat} {turns : List (Turn W)}
    (run : Execution (startRecorded w identity settings capacity) turns n) (frames : Nat)
    {P : W → Prop} (obliging : Obliging P) (takes : ∀ f, ¬ MediumFails W f)
    (within : P n.world.surroundings)
    (timed : 0 < n.sendCount → n.sendTime.toNat ≤ clockOf n.world.surroundings)
    (course : ∀ i m, flushNode? i n = some m →
      arrivals m.world.log ≤ arrivals n.world.log + frames ∧
        clockOf m.world.surroundings + settings.retryInterval.toNat < UInt64.size) :
    ∃ result n', (∀ allowance, n.work + frames ≤ allowance →
      (flush allowance).run n = .ok (result, n')) ∧ AnswersHeard n result n' := by
  have hstart : (startRecorded w identity settings capacity).Sound := .start ..
  have hset : n.settings = settings := (run.steady hstart).2
  have hP := obliging.recorded
  have hn : Underway (fun r : Recorded W => P r.surroundings) n := ⟨within, timed⟩
  have hinterval : n.settings.retryInterval = settings.retryInterval := by rw [hset]
  cases hbusy : n.busy with
  | true =>
    obtain ⟨result, n', hends, hanswer⟩ := flushWithin_ends (n.work + frames) hP takes
      (run.sound hstart) hn hinterval course (by omega)
    refine ⟨result, n', fun allowance hle => ?_, hanswer⟩
    rw [flush_of_busy hbusy, hends allowance hle]
  | false =>
    obtain ⟨delivered, n', hpoll, hpass, -⟩ :=
      poll_ends hP takes hn (hinterval.symm ▸ (course 0 n rfl).2)
    exact ⟨.ofPoll delivered, n', fun a _ => flush_of_idle hbusy hpoll a,
      .of_pass (hP.enabled n.world within) hpass⟩

def FreeNow {S : Type} (w : Timetable Bench.TickClock S) : Prop :=
  (∀ turn, w.turn ≤ turn → w.free turn = true) ∧ w.clock.running = false ∧
    0 < w.clock.pauseTicks.toNat

theorem clockOf_timetable {S : Type} {w : Timetable Bench.TickClock S} (h : FreeNow w) :
    clockOf w = w.clock.time.toNat := by
  show (if w.clock.running then 0 else w.clock.time : Ticks).toNat = _
  rw [h.2.1]
  rfl

theorem time_pause {S : Type} {w : Timetable Bench.TickClock S} (h : FreeNow w) :
    (Clock.pause w).clock.time.toNat =
      min (w.clock.time.toNat + w.clock.pauseTicks.toNat) (UInt64.size - 1) := by
  show (w.clock.advance w.clock.pauseTicks).time.toNat = _
  rw [Bench.TickClock.advance, h.2.1]
  exact UInt64.toNat_ofNat_of_lt' (Nat.lt_of_le_of_lt (Nat.min_le_right ..) (by decide))

theorem FreeNow.pause {S : Type} {w : Timetable Bench.TickClock S} (h : FreeNow w) :
    FreeNow (Clock.pause w) := by
  refine ⟨fun turn hturn => h.1 turn (Nat.le_of_succ_le hturn), ?_⟩
  show (w.clock.advance w.clock.pauseTicks).running = false ∧
    0 < (w.clock.advance w.clock.pauseTicks).pauseTicks.toNat
  rw [Bench.TickClock.advance, h.2.1, if_neg Bool.false_ne_true]
  exact ⟨rfl, h.2.2⟩

theorem obliging_freeNow : Obliging (FreeNow (S := Absent)) where
  onward := {
    refl := fun _ h => ⟨h, Nat.le_refl _⟩
    trans := fun huv hvw h =>
      ⟨(hvw (huv h).1).1, Nat.le_trans (huv h).2 (hvw (huv h).1).2⟩
    configure := fun _ _ _ h => ⟨h, Nat.le_refl _⟩
    canSend := fun _ h => ⟨h, Nat.le_refl _⟩
    transmit := fun _ ht h => by
      cases ht
      exact ⟨h, Nat.le_refl _⟩
    noted := fun _ _ h => ⟨h, Nat.le_refl _⟩
    now := fun _ h => ⟨h, Nat.le_refl _⟩
    pause := fun w h => by
      refine ⟨h.pause, ?_⟩
      have htime := UInt64.toNat_lt_size w.clock.time
      rw [clockOf_timetable h, clockOf_timetable h.pause, time_pause h]
      omega }
  receive _ h := ⟨h, Nat.le_refl _⟩
  sample _ h := ⟨h, Nat.le_refl _⟩
  enabled _ _ := rfl
  free w h := h.1 w.turn (Nat.le_refl _)
  advances w h := by
    have hticks := h.2.2
    rw [clockOf_timetable h, clockOf_timetable h.pause, time_pause h]
    omega

def lateTraffic : Timetable Bench.TickClock Absent where
  free turn := turn != 0
  inbound
    | 0 => .frame { header := ⟨0x25⟩ }
    | 2 => .frame { header := ⟨0x41⟩ }
    | 3 => .badChecksum
    | 5 => .frame { header := ⟨0x23⟩, length := 1 }
    | _ => .nothing
  clock := {}
  signal := .absent

abbrev lateStart : Node (Recorded (Timetable Bench.TickClock Absent)) :=
  startRecorded lateTraffic {} { maxSends := 2, retryInterval := 1500, trace := true } 3

def heldUp : List (Happening (Timetable Bench.TickClock Absent)) :=
  [.command (.send 1 true), .command .poll, .command (.send 2 true)]

def resumed (n : Node (Recorded (Timetable Bench.TickClock Absent))) :
    Node (Recorded (Timetable Bench.TickClock Absent)) :=
  { n with world := { n.world with surroundings := { lateTraffic with turn := 1 } } }

/-- The flush answers, sends, waits and sends again, until a frame for a module comes in. -/
theorem flush_ends_of_late_traffic : ∃ r n',
    play lateStart heldUp = some r ∧ ∀ allowance, 7000 ≤ allowance →
      (flush allowance).run (resumed r.2) = .ok (.delivered 0, n') := by
  have hrun : (play lateStart heldUp).any
      (fun r => (resumed r.2).sendCount = 0 ∧ (resumed r.2).work + 3 ≤ 7000 ∧
        ((List.range 5).all fun i => (flushNode? i (resumed r.2)).all fun m =>
          arrivals m.world.log ≤ arrivals (resumed r.2).world.log + 3 ∧
            clockOf m.world.surroundings + (1500 : Ticks).toNat < UInt64.size) = true ∧
        (flushNode? 5 (resumed r.2)).isNone = true ∧
        ((flush 7000).run (resumed r.2)).toOption.any (fun x => x.1 = .delivered 0) = true) =
      true := by
    decide +kernel
  obtain ⟨r, hr, hd⟩ := (Option.any_eq_true ..).1 hrun
  obtain ⟨hzero, hwork, hcourse, hlast, hdelivered⟩ := of_decide_eq_true hd
  have run : Execution lateStart r.1 (resumed r.2) :=
    (Execution.of_play hr).drift { lateTraffic with turn := 1 }
  have hfree : FreeNow (resumed r.2).world.surroundings := by
    refine ⟨fun turn hturn => ?_, rfl, ?_⟩
    · exact bne_iff_ne.2 (Nat.ne_of_gt hturn)
    · show 0 < (1000 : Ticks).toNat
      decide
  obtain ⟨result, n', hends, -⟩ := run.flush_ends 3 obliging_freeNow timetable_never_fails hfree
    (fun hpos => absurd hpos (by simp [hzero])) (by
      intro i m hm
      by_cases hi : i < 5
      · have hall := List.all_eq_true.1 hcourse i (List.mem_range.2 hi)
        rw [hm] at hall
        exact of_decide_eq_true hall
      · obtain ⟨j, rfl⟩ := Nat.exists_eq_add_of_le (Nat.not_lt.1 hi)
        rw [flushNode?_add, Option.isNone_iff_eq_none.1 hlast] at hm
        cases hm)
  obtain ⟨answer, k, hanswer, hmodule⟩ := run_of_any hdelivered
  have hsame := (hends 7000 hwork).symm.trans hanswer
  cases hsame
  obtain rfl : result = .delivered 0 := of_decide_eq_true hmodule
  exact ⟨r, n', hr, fun allowance hle => hends allowance (Nat.le_trans hwork hle)⟩

end StarNet.Node
