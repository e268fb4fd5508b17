import StarNet.Proofs.Node.Execution

/-!
The contract with the medium: a transmission is started only right after the medium was asked and
said that it is free. A retry asks first and then notes what it is going to do; when the notes fill
the log, the log is shipped, or refused, between the permission and the retry. Nothing else ever
breaks the contract.
-/
namespace StarNet.Node

def Event.call : Event → Bool
  | .asked _ | .sent _ | .heard _ => true
  | _ => false

def Cleared (log : List Event) : Prop := (log.filter Event.call).getLast? = some (.asked true)

instance (log : List Event) : Decidable (Cleared log) := inferInstanceAs (Decidable (_ = _))

/-- Every event on record keeps a rule, given the events before it. -/
def Throughout (rule : List Event → Event → Prop) (log : List Event) : Prop :=
  ∀ i e, log[i]? = some e → rule (log.take i) e

def Permitted (before : List Event) : Event → Prop
  | .sent _ => Cleared before
  | _ => True

/-- Acknowledgements and logs are sent with permission. -/
def PermittedButData (before : List Event) : Event → Prop
  | .sent t => t.purpose ≠ .data → Cleared before
  | _ => True

def countNote (trace : Bool) (k : Nat) : Event → Nat
  | .noted _ => if trace && k < TraceLog.capacity then k + 1 else k
  | .sent t => if t.purpose = .trace then 0 else k
  | _ => k

def loggedNotes (trace : Bool) (log : List Event) : Nat := log.foldl (countNote trace) 0

/-- A note made on a permission, which only a retry does, leaves room for one more note before the
log is nearly full. -/
def Roomy (trace : Bool) (before : List Event) : Event → Prop
  | .noted _ => before.getLast? = some (.asked true) → trace = true → loggedNotes trace before < 43
  | _ => True

theorem throughout_concat {rule : List Event → Event → Prop} {log : List Event} {e : Event} :
    Throughout rule (log ++ [e]) ↔ Throughout rule log ∧ rule log e := by
  constructor
  · intro h
    constructor
    · intro i x hx
      have hi := (List.getElem?_eq_some_iff.1 hx).1
      have := h i x (by rw [List.getElem?_append_left hi, hx])
      rwa [List.take_append_of_le_length (Nat.le_of_lt hi)] at this
    · have := h log.length e (by simp)
      rwa [List.take_left] at this
  · rintro ⟨h, he⟩ i x hx
    by_cases hi : i < log.length
    · rw [List.getElem?_append_left hi] at hx
      rw [List.take_append_of_le_length (Nat.le_of_lt hi)]
      exact h i x hx
    · have hlen := (List.getElem?_eq_some_iff.1 hx).1
      obtain rfl : i = log.length := by
        rw [List.length_append, List.length_singleton] at hlen
        omega
      obtain rfl : e = x := by simpa using hx
      rwa [List.take_left]

theorem cleared_concat (log : List Event) (e : Event) :
    Cleared (log ++ [e]) ↔ if e.call then e = .asked true else Cleared log := by
  unfold Cleared
  rw [List.filter_append]
  cases hc : e.call <;> simp [hc]

theorem loggedNotes_concat (trace : Bool) (log : List Event) (e : Event) :
    loggedNotes trace (log ++ [e]) = countNote trace (loggedNotes trace log) e := by
  simp [loggedNotes, List.foldl_append]

theorem length_push (t : TraceLog) (code : UInt8) :
    (t.push code).notes.length = countNote t.enabled t.notes.length (.noted code) := by
  unfold TraceLog.push countNote
  split <;> simp

theorem loggedNotes_false (log : List Event) : loggedNotes false log = 0 := by
  have hstay (es : List Event) : es.foldl (countNote false) 0 = 0 := by
    induction es with
    | nil => rfl
    | cons e es ih =>
      have he : countNote false 0 e = 0 := by cases e <;> simp [countNote]
      rw [List.foldl_cons, he, ih]
  exact hstay log

/-- Where the contract stands: it was kept so far just if every retry found room, and at the
end of the record no permission is left unused. -/
structure Kept (trace : Bool) (log : List Event) : Prop where
  exact : Throughout Permitted log ↔ Throughout (Roomy trace) log
  others : Throughout PermittedButData log
  unpromised : log.getLast? ≠ some (.asked true)

def Event.quiet : Event → Bool
  | .sent _ | .noted _ => false
  | _ => true

theorem Kept.quiet {trace : Bool} {log : List Event} {e : Event} (h : Kept trace log)
    (he : e.quiet = true) (hp : e ≠ .asked true) : Kept trace (log ++ [e]) where
  exact := by
    rw [throughout_concat, throughout_concat, h.exact]
    cases e <;> simp_all [Event.quiet, Permitted, Roomy]
  others := throughout_concat.2 ⟨h.others, by cases e <;> simp_all [Event.quiet, PermittedButData]⟩
  unpromised := by simpa using hp

theorem Kept.send {trace : Bool} {log : List Event} (h : Kept trace log) (t : Transmission) :
    Kept trace (log ++ [.asked true] ++ [.sent t]) where
  exact := by
    have hc : Cleared (log ++ [.asked true]) := by simp [cleared_concat, Event.call]
    simp only [throughout_concat, h.exact, Permitted, Roomy, hc, and_true]
  others := by
    have hc : Cleared (log ++ [.asked true]) := by simp [cleared_concat, Event.call]
    simp only [throughout_concat, PermittedButData, hc, h.others, and_true, implies_true]
  unpromised := by simp

variable {W : Type}

structure NotesOnRecord (n : Node (Recorded W)) : Prop where
  enabled : n.trace.enabled = n.settings.trace
  notes : n.trace.notes.length = loggedNotes n.settings.trace n.world.log

structure NoteRecorded (code : UInt8) (n n' : Node (Recorded W)) : Prop where
  on_record : NotesOnRecord n'
  permitted : Throughout Permitted n'.world.log ↔ Throughout Permitted n.world.log
  others : Throughout PermittedButData n'.world.log ↔ Throughout PermittedButData n.world.log
  roomy : Throughout (Roomy n.settings.trace) n'.world.log ↔
    Throughout (Roomy n.settings.trace) n.world.log ∧
      Roomy n.settings.trace n.world.log (.noted code)
  unpromised : n'.world.log.getLast? ≠ some (.asked true)
  cleared : Cleared n'.world.log ↔
    Cleared n.world.log ∧ (n.trace.push code).nearlyFull = false
  kept : (n.trace.push code).nearlyFull = false → n'.trace = n.trace.push code

theorem notes_on_record_push {n : Node (Recorded W)} (h : NotesOnRecord n) (code : UInt8) :
    (n.trace.push code).notes.length =
      loggedNotes n.settings.trace (n.world.log ++ [.noted code]) := by
  rw [length_push, h.enabled, h.notes, loggedNotes_concat]

theorem enabled_push (t : TraceLog) (code : UInt8) : (t.push code).enabled = t.enabled := by
  unfold TraceLog.push
  split <;> rfl

variable [Medium W]

theorem Noting.recorded {n n' : Node (Recorded W)} {code : UInt8} (h : NotesOnRecord n)
    (hn : Noting code n n') : NoteRecorded code n n' := by
  have hpush := notes_on_record_push h code
  have henabled := (enabled_push n.trace code).trans h.enabled
  cases hn with
  | kept hfull =>
    have hlog := Recorded.log_noted (r := n.world) code
    constructor
    · exact ⟨henabled, hpush.trans (by rw [hlog])⟩
    all_goals simp [throughout_concat, cleared_concat, hlog, Permitted, PermittedButData,
      Event.call, hfull]
  | held hfull hfree =>
    have hlog := Recorded.log_canSend (r := Medium.noted n.world code)
    rw [Recorded.log_noted, hfree] at hlog
    constructor
    · refine ⟨henabled, hpush.trans ?_⟩
      rw [hlog, loggedNotes_concat _ _ (.asked false)]
      rfl
    all_goals simp [throughout_concat, cleared_concat, hlog, Permitted, PermittedButData,
      Event.call, hfull, Roomy, -List.append_assoc]
  | shipped w hfull hfree ht =>
    have hlog := Recorded.log_transmit ht
    rw [Recorded.log_canSend, Recorded.log_noted, hfree] at hlog
    constructor
    · refine ⟨henabled, ?_⟩
      rw [hlog, loggedNotes_concat _ _ (.sent _)]
      rfl
    all_goals simp [throughout_concat, cleared_concat, hlog, Permitted, PermittedButData,
      Event.call, hfull, Roomy, -List.append_assoc]

variable [Clock W] [SignalSource W] {n n' : Node (Recorded W)}

omit [SignalSource W] in
theorem Launch.recorded (hl : Launch n n') : ∃ t, t.purpose = .data ∧ n'.trace = n.trace ∧
    n'.settings = n.settings ∧ (n'.world.log = n.world.log ++ [.sent t] ∨
      ∃ time, n'.world.log = n.world.log ++ [.sent t] ++ [.read time]) := by
  cases hl with
  | await p w _ _ _ ht =>
    have hlog := Recorded.log_now (r := w)
    rw [Recorded.log_transmit ht] at hlog
    exact ⟨_, rfl, rfl, rfl, .inr ⟨_, hlog⟩⟩
  | depart p w _ _ ht => exact ⟨_, rfl, rfl, rfl, .inl (Recorded.log_transmit ht)⟩

structure Supervised (n : Node (Recorded W)) : Prop where
  notes : NotesOnRecord n
  contract : Kept n.settings.trace n.world.log

omit [Medium W] [Clock W] [SignalSource W] in
theorem Supervised.quiet {e : Event} (h : Supervised n)
    (hl : n'.world.log = n.world.log ++ [e]) (he : e.quiet = true) (hp : e ≠ .asked true)
    (ht : n'.trace = n.trace) (hs : n'.settings = n.settings) : Supervised n' := by
  refine ⟨⟨by rw [ht, hs, h.notes.enabled], ?_⟩, ?_⟩
  · rw [ht, hs, hl, loggedNotes_concat, h.notes.notes]
    cases e with
    | sent | noted => simp [Event.quiet] at he
    | _ => rfl
  · rw [hs, hl]
    exact h.contract.quiet he hp

omit [Medium W] [Clock W] [SignalSource W] in
theorem Supervised.send {t : Transmission} (h : Supervised n)
    (hl : n'.world.log = n.world.log ++ [.asked true] ++ [.sent t])
    (ht : n'.trace = if t.purpose = .trace then n.trace.clear else n.trace)
    (hs : n'.settings = n.settings) : Supervised n' := by
  have hk : Kept n'.settings.trace n'.world.log := by
    rw [hs, hl]
    exact h.contract.send t
  refine ⟨⟨?_, ?_⟩, hk⟩
  · rw [ht, hs, ← h.notes.enabled]
    split <;> rfl
  · rw [ht, hs, hl, loggedNotes_concat, loggedNotes_concat, ← h.notes.notes]
    simp only [countNote]
    split <;> rfl

omit [Clock W] [SignalSource W] in
theorem Supervised.noting {code : UInt8} (h : Supervised n) (hn : Noting code n n') :
    Supervised n' := by
  have hr := hn.recorded h.notes
  have hs : n'.settings = n.settings := by
    obtain ⟨w, t, rfl⟩ := hn.noted
    rfl
  have hroom : Roomy n.settings.trace n.world.log (.noted code) :=
    fun hp => absurd hp h.contract.unpromised
  refine ⟨hr.on_record, ?_, hr.others.2 h.contract.others, hr.unpromised⟩
  rw [hs, hr.permitted, hr.roomy, h.contract.exact]
  exact (and_iff_left hroom).symm

omit [SignalSource W] in
theorem Supervised.launch (hl : Launch n n') (hn : NotesOnRecord n)
    (hx : Throughout Permitted n.world.log ∧ Cleared n.world.log ↔
      Throughout (Roomy n.settings.trace) n.world.log)
    (ho : Throughout PermittedButData n.world.log) : Supervised n' := by
  obtain ⟨t, hdata, htrace, hs, hlog⟩ := hl.recorded
  have hsent : Kept n.settings.trace (n.world.log ++ [.sent t]) := by
    refine ⟨?_, throughout_concat.2 ⟨ho, fun hp => absurd hdata hp⟩, by simp⟩
    simp only [throughout_concat, Permitted, Roomy, hx, and_true]
  have hcount : loggedNotes n.settings.trace (n.world.log ++ [.sent t]) = n.trace.notes.length := by
    rw [loggedNotes_concat, hn.notes]
    simp [countNote, hdata]
  rcases hlog with hlog | ⟨time, hlog⟩
  · refine ⟨⟨by rw [htrace, hs, hn.enabled], by rw [htrace, hs, hlog, hcount]⟩, ?_⟩
    rw [hs, hlog]
    exact hsent
  · refine ⟨⟨by rw [htrace, hs, hn.enabled], ?_⟩, ?_⟩
    · rw [htrace, hs, hlog, loggedNotes_concat, hcount]
      rfl
    · rw [hs, hlog]
      exact hsent.quiet rfl nofun

omit [Medium W] [Clock W] [SignalSource W] in
theorem Supervised.permission {k : Node (Recorded W)} (h : Supervised n)
    (hl : k.world.log = n.world.log ++ [.asked true]) (ht : k.trace = n.trace)
    (hs : k.settings = n.settings) : NotesOnRecord k ∧
      (Throughout Permitted k.world.log ↔ Throughout (Roomy k.settings.trace) k.world.log) ∧
      Throughout PermittedButData k.world.log ∧ Cleared k.world.log := by
  refine ⟨⟨by rw [ht, hs, h.notes.enabled], ?_⟩, ?_, ?_, ?_⟩
  · rw [ht, hs, hl, loggedNotes_concat, h.notes.notes]
    rfl
  · rw [hs, hl, throughout_concat, throughout_concat, h.contract.exact]
    exact Iff.rfl
  · rw [hl]
    exact throughout_concat.2 ⟨h.contract.others, trivial⟩
  · rw [hl, cleared_concat]
    rfl

omit [Clock W] [SignalSource W] in
/-- The two notes of a retry leave the permission in place just if there is room for both. -/
theorem cleared_after_notes {n₁ n₂ : Node (Recorded W)} {code code' : UInt8}
    (hn : NotesOnRecord n) (hc : Cleared n.world.log) (h₁ : Noting code n n₁)
    (h₂ : Noting code' n₁ n₂) :
    Cleared n₂.world.log ↔
      (n.settings.trace = true → loggedNotes n.settings.trace n.world.log < 43) := by
  have hr₁ := h₁.recorded hn
  have hr₂ := h₂.recorded hr₁.on_record
  have hfull (t : TraceLog) : t.nearlyFull = false ↔ t.notes.length < 45 := by
    rw [TraceLog.nearlyFull, decide_eq_false_iff_not, Nat.not_le]
    rfl
  rw [hr₂.cleared, hr₁.cleared, hfull, hfull, length_push, length_push, hn.enabled, hn.notes]
  by_cases hroom : countNote n.settings.trace (loggedNotes n.settings.trace n.world.log)
      (.noted code) < 45
  · have htrace := hr₁.kept ((hfull _).2 (by rw [length_push, hn.enabled, hn.notes]; exact hroom))
    rw [htrace, length_push, enabled_push, hn.enabled, hn.notes]
    cases ht : n.settings.trace with
    | true =>
      simp [ht, countNote, TraceLog.capacity, hc] at hroom ⊢
      grind
    | false => simp [countNote, loggedNotes_false, hc]
  · cases ht : n.settings.trace with
    | true =>
      simp [ht, countNote, TraceLog.capacity, hc] at hroom ⊢
      grind
    | false => simp [ht, countNote, loggedNotes_false] at hroom

omit [SignalSource W] in
theorem Supervised.retry {n₁ n₂ : Node (Recorded W)} {code code' : UInt8} (hl : Launch n₂ n')
    (hn : NotesOnRecord n) (hx : Throughout Permitted n.world.log ↔
      Throughout (Roomy n.settings.trace) n.world.log)
    (ho : Throughout PermittedButData n.world.log) (hc : Cleared n.world.log)
    (hp : n.world.log.getLast? = some (.asked true)) (h₁ : Noting code n n₁)
    (h₂ : Noting code' n₁ n₂) : Supervised n' := by
  have hr₁ := h₁.recorded hn
  have hr₂ := h₂.recorded hr₁.on_record
  have hs₁ : n₁.settings = n.settings := by
    obtain ⟨w, t, rfl⟩ := h₁.noted
    rfl
  have hs₂ : n₂.settings = n.settings := by
    obtain ⟨w, t, rfl⟩ := h₂.noted
    exact hs₁
  have hfirst : Roomy n.settings.trace n.world.log (.noted code) ↔
      (n.settings.trace = true → loggedNotes n.settings.trace n.world.log < 43) :=
    ⟨fun h => h hp, fun h _ => h⟩
  have hsecond : Roomy n.settings.trace n₁.world.log (.noted code') :=
    fun hlast => absurd hlast hr₁.unpromised
  refine .launch hl hr₂.on_record ?_ (hr₂.others.2 (hr₁.others.2 ho))
  have hroomy₂ := hr₂.roomy
  rw [hs₁] at hroomy₂
  rw [hs₂, hr₂.permitted, hr₁.permitted, hx, cleared_after_notes hn hc h₁ h₂, hroomy₂, hr₁.roomy,
    hfirst]
  exact (and_iff_left hsecond).symm

theorem Supervised.move (h : Supervised n) (hm : Move n n') : Supervised n' := by
  cases hm with
  | pause => exact ⟨⟨h.notes.enabled, h.notes.notes⟩, h.contract⟩
  | configure mode => exact h.quiet (Recorded.log_configure ..) rfl nofun rfl rfl
  | note code hn => exact h.noting hn
  | refuse hf =>
    have hlog := Recorded.log_canSend (r := n.world)
    rw [hf] at hlog
    exact h.quiet hlog rfl nofun rfl rfl
  | read => exact h.quiet Recorded.log_now rfl nofun rfl rfl
  | ship force payload w _ hf ht =>
    have hlog := Recorded.log_transmit ht
    rw [Recorded.log_canSend, hf] at hlog
    exact h.send hlog rfl rfl
  | ignore r w hr => exact h.quiet (Recorded.log_receive hr) rfl nofun rfl rfl
  | deliver p w hr =>
    have hheard : Supervised { n with world := w, received := p } :=
      h.quiet (Recorded.log_receive hr) rfl nofun rfl rfl
    exact hheard.quiet Recorded.log_sample rfl nofun rfl rfl
  | settle p w hr =>
    have hheard : Supervised { n with world := w, received := p } :=
      h.quiet (Recorded.log_receive hr) rfl nofun rfl rfl
    exact hheard.quiet Recorded.log_sample rfl nofun rfl rfl
  | answer ack w _ hf ht =>
    have hlog := Recorded.log_transmit ht
    rw [Recorded.log_canSend, hf] at hlog
    exact h.send hlog rfl rfl
  | first _ hf hl =>
    have hlog := Recorded.log_canSend (r := n.world)
    rw [hf] at hlog
    obtain ⟨hn, hx, ho, hc⟩ :=
      h.permission (k := { n with world := (Medium.canSend n.world).2 }) hlog rfl rfl
    exact .launch hl hn ⟨fun hp => hx.1 hp.1, fun hp => ⟨hx.2 hp, hc⟩⟩ ho
  | again deadline _ _ _ hf h₁ h₂ hl =>
    have hread : Supervised { n with world := (Clock.now n.world).2 } :=
      h.quiet Recorded.log_now rfl nofun rfl rfl
    have hlog := Recorded.log_canSend (r := (Clock.now n.world).2)
    rw [hf] at hlog
    obtain ⟨hn, hx, ho, hc⟩ := hread.permission
      (k := { n with world := (Medium.canSend (Clock.now n.world).2).2 }) hlog rfl rfl
    exact .retry hl hn hx ho hc (by simp [hlog]) h₁ h₂

theorem Supervised.moves (h : Supervised n) (hm : Moves n n') : Supervised n' := by
  induction hm with
  | refl => exact h
  | tail _ hm ih => exact ih.move hm

omit [Medium W] [Clock W] [SignalSource W] in
theorem Supervised.enters {c : Command} {ps : List Packet} (h : Supervised n)
    (he : Enters c n ps n') : Supervised n' := by
  cases he <;> exact ⟨⟨h.notes.enabled, h.notes.notes⟩, h.contract⟩

omit [Medium W] [Clock W] [SignalSource W] in
theorem Supervised.start (w : W) (identity : Identity) (settings : Settings) (capacity : Nat) :
    Supervised (startRecorded w identity settings capacity) where
  notes := ⟨rfl, rfl⟩
  contract := ⟨⟨nofun, nofun⟩, nofun, nofun⟩

/-- In every run the contract is kept, but for a retry whose notes fill the log: it is kept
throughout just if every retry finds room for its notes. -/
theorem Execution.medium_contract {w : W} {identity : Identity} {settings : Settings}
    {capacity : Nat} {turns : List (Turn W)}
    (run : Execution (startRecorded w identity settings capacity) turns n) :
    (Throughout Permitted n.world.log ↔ Throughout (Roomy settings.trace) n.world.log) ∧
      Throughout PermittedButData n.world.log := by
  have hs : (startRecorded w identity settings capacity).Sound := .start ..
  have h : Supervised n := run.keeps (I := fun _ n => Supervised n) hs (.start ..)
    (fun _ h he => h.enters he) (fun _ h hm => h.move hm)
    fun _ h => ⟨⟨h.notes.enabled, h.notes.notes⟩, h.contract⟩
  rw [← show n.settings = settings from (run.steady hs).2]
  exact ⟨h.contract.exact, h.contract.others⟩

theorem medium_contract_of_quick_retry : ∃ r,
    play (benchStart { trace := true })
      [.command (.send 1 true), .drift (.scripted 200000 {}), .command .poll] = some r ∧
      dataSent r.2.world.log = [⟨.data, ⟨0x21⟩, [0]⟩, ⟨.data, ⟨0x21⟩, [0]⟩] ∧
      (Throughout Permitted r.2.world.log ↔ Throughout (Roomy true) r.2.world.log) ∧
      Throughout PermittedButData r.2.world.log := by
  have hrun : (play (benchStart { trace := true })
      [.command (.send 1 true), .drift (.scripted 200000 {}), .command .poll]).any
      (fun r => dataSent r.2.world.log = [⟨.data, ⟨0x21⟩, [0]⟩, ⟨.data, ⟨0x21⟩, [0]⟩]) = true := by
    decide +kernel
  obtain ⟨r, hr, hd⟩ := (Option.any_eq_true ..).1 hrun
  exact ⟨r, hr, of_decide_eq_true hd, (Execution.of_play hr).medium_contract⟩

def crowdedRetry : List (Happening Bench.World) :=
  .command (.send 1 true) ::
    .drift (.scripted 0 { busy := true, inbound := List.replicate 40 .badChecksum }) ::
      List.replicate 40 (.command .poll) ++
    [.drift (.scripted 200000 { answers := [false, true] }), .command .poll]

theorem medium_contract_broken_by_retry : ∃ r,
    play (benchStart { trace := true }) crowdedRetry = some r ∧
      ¬ Throughout Permitted r.2.world.log := by
  have hrun : (play (benchStart { trace := true }) crowdedRetry).any
      (fun r => r.2.world.log[147]? = some (.sent ⟨.data, ⟨0x21⟩, [0]⟩) ∧
        ¬ Cleared (r.2.world.log.take 147)) = true := by
    decide +kernel
  obtain ⟨r, hr, hd⟩ := (Option.any_eq_true ..).1 hrun
  obtain ⟨hsent, hbusy⟩ := of_decide_eq_true hd
  refine ⟨r, hr, ?_⟩
  intro h
  exact hbusy (h 147 _ hsent)

end StarNet.Node
