import StarNet.Proofs.Node.BreakOff
import StarNet.Proofs.Node.Execution
import StarNet.Proofs.Node.Surroundings

/-!
Retry deadlines. A node adds the retry interval to the time of its last transmission, which it has
read off the clock. So nothing but the medium breaks a command off, unless a reading that is too
close to the last tick is on record.
-/
namespace StarNet.Node

def ClockInRange (W : Type) [Clock W] (interval : Ticks) : Prop :=
  ∀ w : W, (Clock.now w).1.toNat + interval.toNat < UInt64.size

def Late (interval time : Ticks) : Prop := UInt64.size ≤ time.toNat + interval.toNat

variable {W : Type} [Medium W] [Clock W] [SignalSource W]

omit [SignalSource W] in
theorem Launch.send_time {n n' : Node W} (hl : Launch n n') :
    n'.sendCount = 0 ∨ ∃ w, n'.sendTime = (Clock.now w).1 ∧ n'.world = (Clock.now w).2 := by
  cases hl with
  | await p w => exact .inr ⟨w, rfl, rfl⟩
  | depart => exact .inl rfl

theorem Move.send_time {n n' : Node W} (hm : Move n n') :
    (n'.sendCount = n.sendCount ∧ n'.sendTime = n.sendTime) ∨ n'.sendCount = 0 ∨
      ∃ w, n'.sendTime = (Clock.now w).1 ∧ n'.world = (Clock.now w).2 := by
  cases hm with
  | note code hn =>
    obtain ⟨w, t, rfl⟩ := hn.noted
    exact .inl ⟨rfl, rfl⟩
  | settle => exact .inr (.inl rfl)
  | first _ _ hl => exact .inr hl.send_time
  | again deadline _ _ _ _ _ _ hl => exact .inr hl.send_time
  | _ => exact .inl ⟨rfl, rfl⟩

omit [SignalSource W] in
theorem Recorded.respects_log :
    Respects (fun _ => True) (fun r r' : Recorded W => r.log <+: r'.log) where
  refl r := List.prefix_refl r.log
  trans := List.IsPrefix.trans
  configure _ _ _ := List.prefix_append ..
  canSend _ := List.prefix_append ..
  transmit _ ht := ⟨_, (Recorded.log_transmit ht).symm⟩
  noted _ _ := List.prefix_append ..
  now _ := List.prefix_append ..
  pause r := List.prefix_refl r.log

variable {n n' : Node (Recorded W)}

theorem Move.log_prefix (hm : Move n n') : n.world.log <+: n'.world.log :=
  Recorded.respects_log.move trivial trivial (fun _ => List.prefix_append ..)
    (fun _ => List.prefix_append ..) (.inl trivial) hm

theorem Moves.log_prefix (hm : Moves n n') : n.world.log <+: n'.world.log := by
  induction hm with
  | refl => exact List.prefix_refl _
  | tail _ hm ih => exact ih.trans hm.log_prefix

/-- The send time of a packet under way is a reading on record. -/
def TimeOnRecord (n : Node (Recorded W)) : Prop :=
  0 < n.sendCount → .read n.sendTime ∈ n.world.log ∧ ∃ w : W, (Clock.now w).1 = n.sendTime

omit [Medium W] [SignalSource W] in
theorem TimeOnRecord.of_zero (h : n.sendCount = 0) : n.TimeOnRecord :=
  fun hpos => absurd hpos (by simp [h])

theorem TimeOnRecord.move (h : n.TimeOnRecord) (hm : Move n n') : n'.TimeOnRecord := by
  intro hpos
  rcases hm.send_time with ⟨hc, ht⟩ | hz | ⟨r, ht, hw⟩
  · obtain ⟨hread, hnow⟩ := h (hc ▸ hpos)
    rw [ht]
    exact ⟨hm.log_prefix.subset hread, hnow⟩
  · simp [hz] at hpos
  · rw [ht, hw, Recorded.log_now]
    exact ⟨List.mem_append_right _ List.mem_cons_self, r.surroundings, rfl⟩

theorem TimeOnRecord.moves (h : n.TimeOnRecord) (hm : Moves n n') : n'.TimeOnRecord := by
  induction hm with
  | refl => exact h
  | tail _ hm ih => exact ih.move hm

omit [Medium W] [SignalSource W] in
theorem TimeOnRecord.enters {c : Command} {ps : List Packet} (h : n.TimeOnRecord)
    (he : Enters c n ps n') : n'.TimeOnRecord := by
  cases he <;> exact h

theorem Execution.time_on_record {n₀ : Node (Recorded W)} {turns : List (Turn W)}
    (run : Execution n₀ turns n) (hs : n₀.Sound) (h : n₀.TimeOnRecord) : n.TimeOnRecord :=
  run.keeps (I := fun _ n => n.TimeOnRecord) hs h (fun _ h he => h.enters he)
    (fun _ h hm => h.move hm) fun _ h => h

omit [Clock W] [SignalSource W] in
theorem MediumFails.of_recorded {f : Fault} (h : MediumFails (Recorded W) f) :
    MediumFails W f := by
  obtain ⟨r, t, ht⟩ := h
  unfold Medium.transmit Recorded.instMedium at ht
  cases hw : Medium.transmit r.surroundings t with
  | error => exact ⟨r.surroundings, t, by simpa [hw, bind, Except.bind] using ht⟩
  | ok w => simp [hw, bind, Except.bind, pure, Except.pure] at ht

theorem Moves.steady {n n' : Node W} (hm : Moves n n') :
    n'.identity = n.identity ∧ n'.settings = n.settings := by
  induction hm with
  | refl => exact ⟨rfl, rfl⟩
  | tail _ hm ih => exact ⟨hm.steady.1.trans ih.1, hm.steady.2.trans ih.2⟩

omit [Medium W] [Clock W] [SignalSource W] in
theorem retryTime_error {n : Node W} {f : Fault} (h : n.retryTime = .error f) :
    f = .clockOverflow ∧ Late n.settings.retryInterval n.sendTime := by
  unfold retryTime at h
  split at h <;> rename_i hrange
  · cases h
  · cases h
    exact ⟨rfl, Nat.not_lt.1 hrange⟩

omit [Clock W] in
theorem Hears.send_time {n n' : Node W} {delivered : Option UInt8} (h : Hears n delivered n')
    (hpos : 0 < n'.sendCount) : n'.sendTime = n.sendTime ∧ 0 < n.sendCount := by
  cases h with
  | settle => exact absurd hpos (by simp)
  | _ => exact ⟨rfl, hpos⟩

omit [Clock W] in
theorem intake_send_time {n n' : Node W} {delivered : Option UInt8}
    (h : intake.run n = .ok (delivered, n')) (hpos : 0 < n'.sendCount) :
    n'.sendTime = n.sendTime ∧ 0 < n.sendCount := by
  obtain ⟨k, hships, m, hhears, hremarks⟩ := (intake_outcome n).of_run_eq h
  obtain ⟨w, t, rfl⟩ := hships.noted
  obtain ⟨w', t', rfl⟩ := hremarks.noted
  exact hhears.send_time hpos

/-- A poll is broken off by the medium, or by the deadline of a packet that was sent before. -/
theorem poll_breaks_off {f : Fault} (he : n.enabled = true) (hf : poll.run n = .error f) :
    MediumFails W f ∨ ∃ delivered m, intake.run n = .ok (delivered, m) ∧ 0 < m.sendCount ∧
      m.retryTime = .error f := by
  rcases (poll_stages he).of_run_error hf with hf | ⟨delivered, m, hrun, hf | ⟨hpos, hlate⟩⟩
  · exact .inl hf.of_recorded
  · exact .inl hf.of_recorded
  · exact .inr ⟨delivered, m, hrun, hpos, hlate⟩

/-- A reading of this clock is on record, which is too late for the interval. -/
def LateReading (interval : Ticks) (n : Node (Recorded W)) : Prop :=
  ∃ w : W, .read (Clock.now w).1 ∈ n.world.log ∧ Late interval (Clock.now w).1

theorem TimeOnRecord.poll_error {f : Fault} (h : n.TimeOnRecord)
    (hf : poll.run n = .error f) : MediumFails W f ∨
      f = .clockOverflow ∧ n.LateReading n.settings.retryInterval := by
  cases he : n.enabled with
  | false =>
    rw [poll_run_disabled he] at hf
    cases hf
  | true =>
    rcases poll_breaks_off he hf with hf | ⟨delivered, m, hrun, hpos, hf⟩
    · exact .inl hf
    · obtain ⟨hfault, hlate⟩ := retryTime_error hf
      obtain ⟨htime, hpos⟩ := intake_send_time hrun hpos
      obtain ⟨hread, w, hw⟩ := h hpos
      rw [(Moves.steady (intake_moves hrun)).2, htime, ← hw] at hlate
      exact .inr ⟨hfault, w, hw ▸ hread, hlate⟩

theorem TimeOnRecord.perform_error {c : Command} {f : Fault} (h : n.TimeOnRecord) (hn : n.Sound)
    (hf : (perform c).run n = .error f) : MediumFails W f ∨
      f = .clockOverflow ∧ c.Listens ∧ ∃ i m, i ≤ c.pauses ∧ flushNode? i n = some m ∧
        m.LateReading n.settings.retryInterval := by
  rcases Node.perform_error hn.count_zero hf with hf | ⟨hlistens, i, m, hle, hm, hf⟩
  · exact .inl hf.of_recorded
  · have hmoves := flushNode?_moves hm
    rcases (h.moves hmoves).poll_error hf with hf | ⟨hfault, hlate⟩
    · exact .inl hf
    · exact .inr ⟨hfault, hlistens, i, m, hle, hm, (Moves.steady hmoves).2 ▸ hlate⟩

end StarNet.Node
