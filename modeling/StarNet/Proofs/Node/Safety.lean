import StarNet.Proofs.Node.Deadline

/-!
Safety. At every moment of every command, whatever frames come in, a node stays within its bounds:
its row of slots, the length of a payload, the room in the log, and the send count of its head
packet. So a command always comes to its end, unless the medium fails or a reading of the clock was
too close to the last tick.
-/
namespace StarNet.Node

variable {W : Type}

structure InBounds (capacity : Nat) (n : Node W) : Prop where
  slots : n.queue.slots.length = capacity
  live : n.queue.count ≤ capacity
  /-- There is a slot at the index of the first free one exactly if the queue is not full. -/
  free : n.queue.allocate?.isSome = true ↔ n.queue.isFull = false
  fits : ∀ p ∈ n.queue.toList, p.length.toNat ≤ maxData
  notes : n.trace.notes.length ≤ TraceLog.capacity
  awaiting : n.sendCount = 0 ∨ ∃ p, n.queue.head? = some p ∧ p.header.wantsAck = true ∧
    n.sendCount.toNat < n.settings.maxSends.toNat
  fresh : n.queue.isEmpty = true → n.sendCount = 0

theorem isSome_allocate? (q : Queue) : q.allocate?.isSome = true ↔ q.isFull = false := by
  simp [Queue.allocate?, Queue.isFull]

theorem Sound.in_bounds {n : Node W} {capacity : Nat} (h : n.Sound)
    (hs : n.queue.slots.length = capacity) : InBounds capacity n where
  slots := hs
  live := hs ▸ n.queue.count_le
  free := isSome_allocate? n.queue
  fits := h.fits
  notes := h.notes
  awaiting := h.awaiting
  fresh he := h.count_zero (by simpa [Queue.isEmpty] using he)

theorem length_slots_push {q q' : Queue} {header : Header} {length : UInt8}
    (h : q.push header length = .ok q') : q'.slots.length = q.slots.length := by
  unfold Queue.push at h
  split at h
  · unfold Packet.setLength at h
    split at h
    · cases h
    · cases h
      exact List.length_set
  · cases h

variable [Medium W] [Clock W] [SignalSource W]

omit [Medium W] [Clock W] [SignalSource W] in
theorem Enters.length_slots {n n' : Node W} {c : Command} {ps : List Packet}
    (he : Enters c n ps n') : n'.queue.slots.length = n.queue.slots.length := by
  cases he with
  | nothing => rfl
  | fill change => exact List.length_modify ..
  | packet header length buffer q _ hq => exact length_slots_push hq

theorem Move.length_slots {n n' : Node W} (hm : Move n n') :
    n'.queue.slots.length = n.queue.slots.length := by
  rcases hm.queue with hq | ⟨p, -, hq⟩
  · rw [hq]
  · rw [hq, (Queue.slots_pop_perm n.queue).length_eq]

theorem Moves.length_slots {n n' : Node W} (hm : Moves n n') :
    n'.queue.slots.length = n.queue.slots.length := by
  induction hm with
  | refl => rfl
  | tail _ hm ih => exact hm.length_slots.trans ih

theorem Execution.length_slots {n₀ n : Node (Recorded W)} {turns : List (Turn W)}
    (run : Execution n₀ turns n) (hs : n₀.Sound) :
    n.queue.slots.length = n₀.queue.slots.length :=
  run.keeps (I := fun _ n => n.queue.slots.length = n₀.queue.slots.length) hs rfl
    (fun _ h he => he.length_slots.trans h) (fun _ h hm => hm.length_slots.trans h) fun _ h => h

/-- In every run a node is in bounds at every moment of the next command, and a packet that finds
the queue empty is the head and was never sent. A command breaks off by a failure of the medium, or
because a deadline is past the last tick. In that case the command polls, and when the poll begins
that breaks off, a reading that is too late is on record. A single pass of a flush breaks off for
the same reasons. -/
theorem Execution.stays_in_bounds {w : W} {identity : Identity} {settings : Settings}
    {capacity : Nat} {turns : List (Turn W)} {n : Node (Recorded W)}
    (run : Execution (startRecorded w identity settings capacity) turns n) :
    (∀ c ps m k, Enters c n ps m → Moves m k → InBounds capacity k) ∧
      (∀ c p m, n.queue.isEmpty = true → Enters c n [p] m →
        m.queue.toList = [p] ∧ m.sendCount = 0) ∧
      (∀ c f, (perform c).run n = .error f → MediumFails W f ∨
        f = .clockOverflow ∧ c.Listens ∧ ∃ i m, i ≤ c.pauses ∧ flushNode? i n = some m ∧
          m.LateReading settings.retryInterval) ∧
      ∀ pass ∈ [beginFlush, continueFlush], ∀ f, pass.run n = .error f → MediumFails W f ∨
        f = .clockOverflow ∧ n.LateReading settings.retryInterval := by
  have hstart : (startRecorded w identity settings capacity).Sound := .start ..
  have hn : n.Sound := run.sound hstart
  have hset : n.settings = settings := (run.steady hstart).2
  have htime : n.TimeOnRecord := run.time_on_record hstart (.of_zero rfl)
  refine ⟨?_, ?_, ?_, ?_⟩
  · intro c ps m k he hm
    have hslots : k.queue.slots.length = capacity := by
      rw [Moves.length_slots hm, he.length_slots, run.length_slots hstart]
      exact List.length_replicate
    exact ((hn.enters he).moves hm).in_bounds hslots
  · intro c p m hempty he
    have hzero : n.queue.count = 0 := by simpa [Queue.isEmpty] using hempty
    cases he with
    | packet header length buffer q _ _ _ _ ht =>
      have hnil : n.queue.toList = [] := List.eq_nil_of_length_eq_zero (by simpa using hzero)
      exact ⟨by rw [ht, hnil]; rfl, hn.count_zero hzero⟩
  · intro c f hf
    exact hset ▸ htime.perform_error hn hf
  · intro pass hpass f hf
    simp only [List.mem_cons, List.not_mem_nil, or_false] at hpass
    rcases hpass with rfl | rfl
    · exact hset ▸ htime.poll_error (beginFlush_error hf)
    · exact hset ▸ htime.poll_error ((continueFlush_outcome n).of_run_error hf)

def freeAt (time : Ticks) : Timetable Bench.TickClock Absent where
  free _ := true
  inbound _ := .nothing
  clock := { time }
  signal := .absent

abbrev freeStart : Node (Recorded (Timetable Bench.TickClock Absent)) :=
  startRecorded (freeAt 0) {} { trace := true } 3

def fullQueue : List (Happening (Timetable Bench.TickClock Absent)) :=
  [.command (.send 66 true), .command (.send 1 true), .command (.broadcast 2),
    .command (.sendRaw 3 ⟨0x85⟩), .drift (freeAt 200000), .command .poll]

def lastTick : List (Happening (Timetable Bench.TickClock Absent)) :=
  fullQueue ++ [.drift (freeAt 0xFFFFFFFFFFFFFFFF), .command .poll]

def Event.inRange (interval : Ticks) : Event → Bool
  | .read time => time.toNat + interval.toNat < UInt64.size
  | _ => true

theorem inRange_read {interval time : Ticks} :
    (Event.read time).inRange interval = true ↔ ¬ Late interval time := by
  rw [Event.inRange, decide_eq_true_iff, Late, Nat.not_le]

/-- With all readings so far in range no command breaks off at its first poll. The one at the last
tick is too late for another. -/
theorem stays_in_bounds_of_full_queue : ∃ p m r late,
    Enters (.send 66 true) freeStart [p] m ∧ m.queue.toList = [p] ∧ m.sendCount = 0 ∧
    play freeStart fullQueue = some r ∧ r.2.queue.isFull = true ∧ r.2.sendCount = 2 ∧
    InBounds 3 r.2 ∧ (∀ c, c.pauses = 0 → ∃ a n', (perform c).run r.2 = .ok (a, n')) ∧
    (∃ a n', beginFlush.run r.2 = .ok (a, n')) ∧ play freeStart lastTick = some late ∧
    (perform .poll).run late.2 = .error .clockOverflow ∧ late.2.LateReading 100000 := by
  have hfull : (play freeStart fullQueue).any (fun r => r.2.queue.isFull = true ∧
      r.2.sendCount = 2 ∧ r.2.world.log.all (Event.inRange 100000) = true) = true := by
    decide +kernel
  have hlast : (play freeStart lastTick).any
      (fun r => ((perform .poll).run r.2).toOption.isNone) = true := by
    decide +kernel
  obtain ⟨r, hr, hd⟩ := (Option.any_eq_true ..).1 hfull
  obtain ⟨hfull, hcount, hrange⟩ := of_decide_eq_true hd
  obtain ⟨late, hlate, hnone⟩ := (Option.any_eq_true ..).1 hlast
  obtain ⟨q, hpush⟩ : ∃ q, freeStart.queue.push ⟨0x21⟩ 66 = .ok q := ⟨_, rfl⟩
  have henters := Enters.of_push (c := .send 66 true) (n := freeStart) rfl hpush
  obtain ⟨hlist, hzero⟩ := Execution.start.stays_in_bounds.2.1 _ _ _ rfl henters
  obtain ⟨hbounds, -, hcommand, hpass⟩ := (Execution.of_play hr).stays_in_bounds
  obtain ⟨-, -, hbreaks, -⟩ := (Execution.of_play hlate).stays_in_bounds
  have hintime : ¬ r.2.LateReading 100000 := by
    rintro ⟨w, hread, hlate⟩
    exact inRange_read.1 (List.all_eq_true.1 hrange _ hread) hlate
  refine ⟨_, _, r, late, henters, hlist, hzero, hr, hfull, hcount,
    hbounds .poll [] r.2 r.2 (.nothing r.2) .refl, ?_, ?_, hlate, ?_⟩
  · intro c hpauses
    refine run_of_no_error fun f hrun => ?_
    rcases hcommand c f hrun with hf | ⟨-, -, i, m, hi, hm, hlate⟩
    · exact timetable_never_fails f hf
    · obtain rfl : i = 0 := Nat.le_zero.1 (hpauses ▸ hi)
      cases hm
      exact hintime hlate
  · refine run_of_no_error fun f hrun => ?_
    rcases hpass beginFlush List.mem_cons_self f hrun with hf | ⟨-, hlate⟩
    · exact timetable_never_fails f hf
    · exact hintime hlate
  · cases hrun : (perform .poll).run late.2 with
    | ok x =>
      rw [hrun] at hnone
      cases hnone
    | error f =>
      rcases hbreaks .poll f hrun with hf | ⟨rfl, -, i, m, hi, hm, hlate⟩
      · exact absurd hf (timetable_never_fails f)
      · obtain rfl : i = 0 := Nat.le_zero.1 hi
        cases hm
        exact ⟨rfl, hlate⟩

end StarNet.Node
