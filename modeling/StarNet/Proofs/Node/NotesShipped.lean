import Mathlib.Data.List.Basic
import StarNet.Proofs.Node.Commit

/-!
The notes that a node makes come out of its log in order and each once. Every stage of a command
makes notes, ships the log or leaves it alone, and what holds of the log and the record is kept by
each of these. A note is lost just if it is made while the log is full, and before that the medium
was found taken.
-/
namespace StarNet.Node

def Event.note? : Event → Option UInt8
  | .noted code => some code
  | _ => none

def Event.body? : Event → Option (List UInt8)
  | .sent t => if t.purpose = .trace then some t.payload.tail else none
  | _ => none

def notesMade (log : List Event) : List UInt8 := log.filterMap Event.note?

/-- Those that were made while there was room for them. -/
def notesTaken (log : List Event) : List UInt8 :=
  (List.range log.length).filterMap fun i =>
    if loggedNotes true (log.take i) < TraceLog.capacity then log[i]?.bind Event.note? else none

def notesShipped (log : List Event) : List UInt8 := (log.filterMap Event.body?).flatten

section Record

variable (log : List Event) (e : Event)

theorem notesMade_concat : notesMade (log ++ [e]) = notesMade log ++ e.note?.toList := by
  rw [notesMade, List.filterMap_append]
  cases h : e.note? <;> simp [notesMade, h]

theorem notesShipped_concat :
    notesShipped (log ++ [e]) = notesShipped log ++ e.body?.getD [] := by
  rw [notesShipped, List.filterMap_append, List.flatten_append]
  cases h : e.body? <;> simp [notesShipped, h]

theorem notesTaken_concat : notesTaken (log ++ [e]) = notesTaken log ++
    if loggedNotes true log < TraceLog.capacity then e.note?.toList else [] := by
  have hearlier : (List.range log.length).filterMap (fun i =>
      if loggedNotes true ((log ++ [e]).take i) < TraceLog.capacity then
        (log ++ [e])[i]?.bind Event.note? else none) = notesTaken log := by
    refine List.filterMap_congr fun i hi => ?_
    have hlt := List.mem_range.1 hi
    rw [List.take_append_of_le_length (Nat.le_of_lt hlt), List.getElem?_append_left hlt]
  rw [notesTaken, List.length_append, List.length_singleton, List.range_succ,
    List.filterMap_append, hearlier]
  by_cases hroom : loggedNotes true log < TraceLog.capacity
  · cases h : e.note? <;> simp [hroom, h]
  · simp [hroom]

end Record

structure Diary where
  trace : TraceLog
  record : List Event

def diary {W : Type} (n : Node (Recorded W)) : Diary := ⟨n.trace, n.world.log⟩

theorem diary_eq {W : Type} {n : Node (Recorded W)} {d : Diary} (ht : n.trace = d.trace)
    (hl : n.world.log = d.record) : n.diary = d := by
  rw [diary, ht, hl]

def Event.Unlogged : Event → Prop
  | .noted _ => False
  | .sent t => t.purpose ≠ .trace
  | _ => True

/-- What is done at once with the log: a note is made, after which the log is shipped if it is
nearly full and the medium is free, or the log is shipped because it is due or on demand. -/
inductive Entry (force : Bool) : Diary → Diary → Prop where
  | other (d : Diary) (e : Event) : e.Unlogged → Entry force d ⟨d.trace, d.record ++ [e]⟩
  | kept (d : Diary) (code : UInt8) : (d.trace.push code).nearlyFull = false →
      Entry force d ⟨d.trace.push code, d.record ++ [.noted code]⟩
  | held (d : Diary) (code : UInt8) :
      Entry force d ⟨d.trace.push code, d.record ++ [.noted code] ++ [.asked false]⟩
  | full (d : Diary) (code : UInt8) (header : Header) : (d.trace.push code).nearlyFull = true →
      Entry force d ⟨(d.trace.push code).clear, d.record ++ [.noted code] ++ [.asked true] ++
        [.sent ⟨.trace, header, ModuleId.log :: (d.trace.push code).notes⟩]⟩
  | ship (d : Diary) (header : Header) (payload : List UInt8) :
      d.trace.pending? force = some payload →
      Entry force d ⟨d.trace.clear, d.record ++ [.sent ⟨.trace, header, payload⟩]⟩

abbrev Entries (force : Bool) : Diary → Diary → Prop := Relation.ReflTransGen (Entry force)

theorem pending?_eq_some {t : TraceLog} {force : Bool} {payload : List UInt8}
    (h : t.pending? force = some payload) :
    payload = ModuleId.log :: t.notes ∧ 0 < t.notes.length ∧
      (force = false → TraceLog.capacity / 2 ≤ t.notes.length) := by
  unfold TraceLog.pending? at h
  split at h
  next hdue =>
    simp only [Bool.or_eq_true, Bool.and_eq_true, decide_eq_true_eq] at hdue
    refine ⟨(Option.some.inj h).symm, ?_, fun hforce => ?_⟩
    · rcases hdue with ⟨-, hpos⟩ | hhalf
      · exact hpos
      · exact Nat.lt_of_lt_of_le (by decide) hhalf
    · rcases hdue with ⟨hdemand, -⟩ | hhalf
      · exact absurd hdemand (by simp [hforce])
      · exact hhalf
  next => cases h

theorem pending?_forced {t : TraceLog} {force : Bool} {payload : List UInt8}
    (h : t.pending? force = some payload) : t.pending? true = some payload := by
  obtain ⟨rfl, hpos, -⟩ := pending?_eq_some h
  simp [TraceLog.pending?, hpos]

theorem Entries.forced {d d' : Diary} {force : Bool} (h : Entries force d d') :
    Entries true d d' := by
  refine Relation.ReflTransGen.mono (fun d d' he => ?_) _ _ h
  cases he with
  | other e he => exact .other d e he
  | kept code hroom => exact .kept d code hroom
  | held code => exact .held d code
  | full code header hfull => exact .full d code header hfull
  | ship header payload hdue => exact .ship d header payload (pending?_forced hdue)

section Stages

variable {W : Type} [Medium W] [Clock W] [SignalSource W] {n n' : Node (Recorded W)} {force : Bool}

omit [Medium W] [Clock W] [SignalSource W] in
theorem Entries.entry {d : Diary} (h : Entry force n.diary d) (ht : n'.trace = d.trace)
    (hl : n'.world.log = d.record) : Entries force n.diary n'.diary := by
  rw [diary_eq ht hl]
  exact .single h

omit [Medium W] [Clock W] [SignalSource W] in
theorem Entries.other {e : Event} (he : e.Unlogged) (ht : n'.trace = n.trace)
    (hl : n'.world.log = n.world.log ++ [e]) : Entries force n.diary n'.diary :=
  .entry (.other n.diary e he) ht hl

omit [Clock W] [SignalSource W] in
theorem Noting.entries {code : UInt8} (h : Noting code n n') :
    Entries force n.diary n'.diary := by
  cases h with
  | kept hroom => exact .entry (.kept n.diary code hroom) rfl rfl
  | held hfull hfree =>
    have hlog := Recorded.log_canSend (r := Medium.noted n.world code)
    rw [hfree, Recorded.log_noted] at hlog
    exact .entry (.held n.diary code) rfl hlog
  | shipped w hfull hfree hsent =>
    have hlog := Recorded.log_transmit hsent
    rw [Recorded.log_canSend, hfree, Recorded.log_noted] at hlog
    exact .entry (.full n.diary code _ hfull) rfl hlog

omit [Clock W] [SignalSource W] in
theorem Remarks.entries (h : Remarks n n') : Entries force n.diary n'.diary := by
  induction h with
  | refl => exact .refl
  | tail _ hnoting ih =>
    obtain ⟨code, hnoting⟩ := hnoting
    exact ih.trans hnoting.entries

omit [Clock W] [SignalSource W] in
theorem asked_entries (n : Node (Recorded W)) :
    Entries force n.diary (diary { n with world := (Medium.canSend n.world).2 }) :=
  .other (e := .asked (Medium.canSend n.world).1) trivial rfl rfl

omit [Medium W] [SignalSource W] in
theorem read_entries (n : Node (Recorded W)) :
    Entries force n.diary (diary { n with world := (Clock.now n.world).2 }) :=
  .other (e := .read (Clock.now n.world).1) trivial rfl rfl

omit [SignalSource W] in
theorem Launch.entries (h : Launch n n') : Entries force n.diary n'.diary := by
  cases h with
  | await p w _ _ _ hsent =>
    have hstep : Entries force n.diary (diary { n with world := w }) :=
      .other (by simp [Event.Unlogged]) rfl (Recorded.log_transmit hsent)
    exact hstep.trans (read_entries { n with world := w })
  | depart p w _ _ hsent =>
    exact .other (by simp [Event.Unlogged]) rfl (Recorded.log_transmit hsent)

omit [SignalSource W] in
theorem Launches.entries (h : Launches n n') : Entries force n.diary n'.diary := by
  obtain ⟨m, hlaunch, hremarks⟩ := h
  exact hlaunch.entries.trans hremarks.entries

omit [Clock W] [SignalSource W] in
theorem shipped_entries {payload : List UInt8} {header : Header} {w : Recorded W}
    (hdue : n.trace.pending? force = some payload)
    (hsent : Medium.transmit (Medium.canSend n.world).2 ⟨.trace, header, payload⟩ = .ok w) :
    Entries force n.diary (diary { n with world := w, trace := n.trace.clear }) := by
  have hship : Entry force (diary { n with world := (Medium.canSend n.world).2 }) _ :=
    .ship _ header payload hdue
  exact (asked_entries n).trans (Entries.entry hship rfl (Recorded.log_transmit hsent))

omit [Clock W] [SignalSource W] in
theorem Ships.entries (h : Ships force n n') : Entries force n.diary n'.diary := by
  cases h with
  | undue => exact .refl
  | held => exact asked_entries n
  | shipped payload w hdue _ hsent => exact shipped_entries hdue hsent

omit [Clock W] in
theorem Hears.entries {delivered : Option UInt8} (h : Hears n delivered n') :
    Entries force n.diary n'.diary := by
  have hsampled (w : Recorded W) (p : Packet) (hr : Medium.receive n.world = (.frame p, w)) :
      Entries force n.diary (diary { n with world := (SignalSource.sample w).2 }) := by
    have hheard : Entries force n.diary (diary { n with world := w }) :=
      .other (e := .heard (.frame p)) trivial rfl (Recorded.log_receive hr)
    exact hheard.trans (Entries.other (e := .sampled _) trivial rfl Recorded.log_sample)
  cases h with
  | ignore r w hr => exact .other (e := .heard r) trivial rfl (Recorded.log_receive hr)
  | deliver p w hr => exact hsampled w p hr
  | settle p w hr => exact hsampled w p hr

omit [SignalSource W] in
theorem again_entries {n₁ n₂ : Node (Recorded W)} {code code' : UInt8}
    (h₁ : Noting code { n with world := (Medium.canSend (Clock.now n.world).2).2 } n₁)
    (h₂ : Noting code' n₁ n₂) (hl : Launch n₂ n') : Entries force n.diary n'.diary :=
  ((((read_entries n).trans (asked_entries { n with world := (Clock.now n.world).2 })).trans
    h₁.entries).trans h₂.entries).trans hl.entries

omit [SignalSource W] in
theorem Resends.entries (h : Resends n n') : Entries force n.diary n'.diary := by
  cases h with
  | empty => exact .refl
  | held => exact asked_entries n
  | first _ _ _ hl => exact (asked_entries n).trans hl.entries
  | early => exact read_entries n
  | refused =>
    exact (read_entries n).trans (asked_entries { n with world := (Clock.now n.world).2 })
  | again deadline _ _ _ _ _ h₁ h₂ hl =>
    obtain ⟨m, hlaunch, hremarks⟩ := hl
    exact (again_entries h₁ h₂ hlaunch).trans hremarks.entries

omit [SignalSource W] in
theorem Starts.entries (h : Starts n n') : Entries force n.diary n'.diary := by
  cases h with
  | unowing _ hr => exact hr.entries
  | answer ack w _ _ hsent =>
    exact (asked_entries n).trans
      (Entries.other (by simp [Event.Unlogged]) rfl (Recorded.log_transmit hsent))
  | refused _ _ _ hr => exact (asked_entries n).trans hr.entries

theorem Pass.entries {delivered : Option UInt8} (h : Pass n delivered n') :
    Entries false n.diary n'.diary := by
  cases h with
  | off => exact .refl
  | on _ hships hhears hremarks hstarts =>
    exact ((hships.entries.trans hhears.entries).trans hremarks.entries).trans hstarts.entries

theorem Passes.entries {result : FlushResult} (h : Passes n result n') :
    Entries false n.diary n'.diary := by
  induction h with
  | drained => exact .refl
  | delivered _ hp => exact hp.entries
  | stuck _ hp => exact hp.entries
  | again _ hp _ ih => exact hp.entries.trans ih

theorem Flushes.entries {result : FlushResult} (h : Flushes n result n') :
    Entries false n.diary n'.diary := by
  cases h with
  | idle _ hp => exact hp.entries
  | busy _ hps => exact hps.entries

omit [SignalSource W] in
theorem Dispatches.entries (h : Dispatches n n') : Entries force n.diary n'.diary := by
  cases h with
  | behind => exact .refl
  | held _ _ hn => exact (asked_entries n).trans hn.entries
  | goes _ _ hl => exact (asked_entries n).trans hl.entries

omit [Clock W] [SignalSource W] in
theorem configured_entries (n : Node (Recorded W)) (mode : RadioMode) : Entries force n.diary
    (diary { n with world := Medium.configure n.world n.identity mode }) :=
  .other (e := .configured n.identity mode) trivial rfl rfl

omit [SignalSource W] in
theorem Errand.entries (h : Errand n n') : Entries true n.diary n'.diary := by
  cases h with
  | configure mode => exact configured_entries n mode
  | note code hn => exact hn.entries
  | refuse => exact asked_entries n
  | read => exact read_entries n
  | ship force payload w hdue _ hsent => exact (shipped_entries hdue hsent).forced
  | first _ _ hl => exact (asked_entries n).trans hl.entries
  | again deadline _ _ _ _ h₁ h₂ hl => exact again_entries h₁ h₂ hl

theorem Move.entries (h : Move n n') : Entries true n.diary n'.diary := by
  rcases h.stage with he | ⟨delivered, hh⟩ | hs | rfl
  · exact he.entries
  · exact hh.entries
  · exact hs.entries
  · exact .refl

theorem Moves.entries (h : Moves n n') : Entries true n.diary n'.diary := by
  induction h with
  | refl => exact .refl
  | tail _ hm ih => exact ih.trans hm.entries

omit [SignalSource W] in
theorem sendRaw_entries (n : Node (Recorded W)) (length : UInt8) (header : Header) :
    Outcome (sendRaw length header) n (fun _ n' => Entries force n.diary n'.diary)
      fun _ => True := by
  cases he : n.enabled with
  | false => exact .of_eq_ok (sendRaw_disabled he) .refl
  | true =>
    cases hq : n.queue.push header length with
    | error e => exact .of_eq_ok (sendRaw_refused he hq) .refl
    | ok q =>
      refine (sendRaw_accepted he hq).imp ?_ fun _ _ => trivial
      rintro _ n' - ⟨-, m, hm, hd⟩
      have hnoting : Entries force (diary { n with queue := q }) m.diary := hm.entries
      exact hnoting.trans hd.entries

omit [Clock W] [SignalSource W] in
theorem initRadio_entries (n : Node (Recorded W)) (mode : RadioMode) :
    Outcome (initRadio mode) n (fun _ n' => Entries force n.diary n'.diary) fun _ => True := by
  unfold initRadio
  rw [outcome_bind, outcome_get]
  split
  · simp only [outcome_bind, outcome_set]
    exact (note_notes _ .mediumReady).imp
      (fun _ _ _ hr => (configured_entries n mode).trans hr.entries) fun _ _ => trivial
  · exact .refl

theorem perform_entries {c : Command} (hc : c ≠ .shipTrace true) (n : Node (Recorded W)) :
    Outcome (perform c) n (fun _ n' => Entries false n.diary n'.diary) fun _ => True := by
  have commit {header : Header} {length : UInt8} (ho : c.offer? n = some (header, length)) :
      Outcome (perform c) n (fun _ n' => Entries false n.diary n'.diary) fun _ => True := by
    unfold Outcome
    rw [perform_offer ho]
    exact (sendRaw_entries n length header).bind fun _ _ h => h
  have travels {α : Type} {x : NodeM (Recorded W) α} {Q : α → Node (Recorded W) → Prop}
      {answer : α → Answer} (hx : Travels n x n Q)
      (hQ : ∀ a n', Q a n' → Entries false n.diary n'.diary) :
      Outcome (do return answer (← x)) n (fun _ n' => Entries false n.diary n'.diary)
        fun _ => True := by
    rw [outcome_bind]
    exact Outcome.imp hx (fun a n' _ h => hQ a n' h.2) fun _ _ => trivial
  cases c with
  | allocate change =>
    simp only [perform, allocate, outcome_bind, outcome_get]
    split <;> exact .refl
  | send | broadcast | sendRaw => exact commit rfl
  | poll => exact travels (poll_travels .refl) fun _ _ h => h.entries
  | flush allowance => exact travels (flush_travels allowance .refl) fun _ _ h => h.entries
  | shipTrace force =>
    obtain rfl : force = false := by simpa using hc
    exact travels (shipTrace_travels false .refl) fun _ _ h => h.entries
  | initRadio mode =>
    exact (initRadio_entries n mode).bind fun _ _ h => h

end Stages

/-- What was shipped, and then what waits in the log, is what was noted while there was room. Every
log that was shipped held some notes, and no more than fit. -/
structure Whole (d : Diary) : Prop where
  enabled : d.trace.enabled = true
  count : d.trace.notes.length = loggedNotes true d.record
  fits : d.trace.notes.length ≤ TraceLog.capacity
  order : notesShipped d.record ++ d.trace.notes = notesTaken d.record
  frames : ∀ t, .sent t ∈ d.record → t.purpose = .trace → t.payload.length ≤ maxData ∧
    ∃ body, t.payload = ModuleId.log :: body ∧ 0 < body.length ∧ body.length ≤ TraceLog.capacity

/-- A medium that was always found free leaves room for every note. -/
def Lossless (d : Diary) : Prop :=
  .asked false ∉ d.record →
    d.trace.nearlyFull = false ∧ notesTaken d.record = notesMade d.record

def HalfFull (es : List Event) : Prop :=
  ∀ t, .sent t ∈ es → t.purpose = .trace → TraceLog.capacity / 2 ≤ t.payload.tail.length

section Invariants

variable {d d' : Diary} {force : Bool} {e : Event}

theorem Whole.start : Whole ⟨{ enabled := true }, []⟩ where
  enabled := rfl
  count := rfl
  fits := Nat.zero_le _
  order := rfl
  frames := nofun

theorem Event.Unlogged.silent (h : e.Unlogged) (k : Nat) :
    countNote true k e = k ∧ e.note? = none ∧ e.body? = none := by
  cases e with
  | noted code => exact h.elim
  | sent t => exact ⟨if_neg h, rfl, if_neg h⟩
  | _ => exact ⟨rfl, rfl, rfl⟩

theorem Whole.other (h : Whole d) (he : e.Unlogged) : Whole ⟨d.trace, d.record ++ [e]⟩ := by
  obtain ⟨hcount, hnote, hbody⟩ := he.silent (loggedNotes true d.record)
  refine ⟨h.enabled, ?_, h.fits, ?_, fun t ht htrace => ?_⟩
  · rw [loggedNotes_concat, hcount, h.count]
  · rw [notesShipped_concat, notesTaken_concat, hnote, hbody]
    simp [h.order]
  · rcases List.mem_append.1 ht with hbefore | hlast
    · exact h.frames t hbefore htrace
    · obtain rfl := List.mem_singleton.1 hlast
      exact absurd htrace he

theorem Whole.note (h : Whole d) (code : UInt8) :
    Whole ⟨d.trace.push code, d.record ++ [.noted code]⟩ := by
  have hpushed : (d.trace.push code).notes =
      d.trace.notes ++ if loggedNotes true d.record < TraceLog.capacity then [code] else [] := by
    rw [← h.count, TraceLog.push, h.enabled]
    by_cases hroom : d.trace.notes.length < TraceLog.capacity <;> simp [hroom]
  refine ⟨(enabled_push d.trace code).trans h.enabled, ?_, notes_push_le h.fits code, ?_,
    fun t ht htrace => h.frames t (by simpa using ht) htrace⟩
  · rw [length_push, h.enabled, h.count, loggedNotes_concat]
  · rw [notesShipped_concat, notesTaken_concat, hpushed, ← h.order]
    simp [Event.body?, Event.note?]

theorem Whole.ship (h : Whole d) (hpos : 0 < d.trace.notes.length) (header : Header) :
    Whole ⟨d.trace.clear,
      d.record ++ [.sent ⟨.trace, header, ModuleId.log :: d.trace.notes⟩]⟩ := by
  refine ⟨h.enabled, ?_, Nat.zero_le _, ?_, fun t ht htrace => ?_⟩
  · rw [loggedNotes_concat]
    rfl
  · rw [notesShipped_concat, notesTaken_concat, ← h.order]
    simp [Event.body?, Event.note?, TraceLog.clear]
  · rcases List.mem_append.1 ht with hbefore | hlast
    · exact h.frames t hbefore htrace
    · cases List.mem_singleton.1 hlast
      have hfit := h.fits
      have hroom : TraceLog.capacity + 1 ≤ maxData := by decide
      refine ⟨?_, d.trace.notes, rfl, hpos, hfit⟩
      simp only [List.length_cons]
      omega

theorem Entry.whole (he : Entry force d d') (h : Whole d) : Whole d' := by
  cases he with
  | other e he => exact h.other he
  | kept code => exact h.note code
  | held code => exact (h.note code).other trivial
  | full code header hfull =>
    obtain ⟨-, hpos, -⟩ := pending?_eq_some (TraceLog.pending?_of_nearlyFull hfull false)
    exact ((h.note code).other (e := .asked true) trivial).ship hpos header
  | ship header payload hdue =>
    obtain ⟨rfl, hpos, -⟩ := pending?_eq_some hdue
    exact h.ship hpos header

theorem Whole.taken (h : Whole d) (hroom : d.trace.nearlyFull = false) (code : UInt8) :
    notesTaken (d.record ++ [.noted code]) = notesTaken d.record ++ [code] := by
  have hroom : d.trace.notes.length < 3 * TraceLog.capacity / 4 := by
    simpa [TraceLog.nearlyFull] using hroom
  have hlt : loggedNotes true d.record < TraceLog.capacity :=
    h.count ▸ Nat.lt_of_lt_of_le hroom (by decide)
  rw [notesTaken_concat, if_pos hlt]
  rfl

theorem notes_concat_of_none (log : List Event) (h : e.note? = none) :
    notesTaken (log ++ [e]) = notesTaken log ∧ notesMade (log ++ [e]) = notesMade log := by
  rw [notesTaken_concat, notesMade_concat, h]
  simp

theorem Entry.record_prefix (he : Entry force d d') : d.record <+: d'.record := by
  cases he with
  | other | kept | ship => exact List.prefix_append ..
  | held => exact (List.prefix_append ..).trans (List.prefix_append ..)
  | full =>
    exact ((List.prefix_append ..).trans (List.prefix_append ..)).trans (List.prefix_append ..)

theorem Entry.lossless (he : Entry force d d') (hw : Whole d) (h : Lossless d) : Lossless d' := by
  intro hfree
  obtain ⟨hroom, hall⟩ := h fun hbefore => hfree (he.record_prefix.subset hbefore)
  have hnoted (code : UInt8) : notesTaken (d.record ++ [.noted code]) =
      notesMade (d.record ++ [.noted code]) := by
    rw [hw.taken hroom, notesMade_concat, hall]
    rfl
  cases he with
  | other e he =>
    obtain ⟨htaken, hmade⟩ := notes_concat_of_none d.record (he.silent 0).2.1
    exact ⟨hroom, by rw [htaken, hmade, hall]⟩
  | kept code hkept => exact ⟨hkept, hnoted code⟩
  | held code => exact absurd (List.mem_append_right _ List.mem_cons_self) hfree
  | full code header =>
    refine ⟨rfl, ?_⟩
    simp only [notes_concat_of_none _ (show Event.note? (.sent _) = none from rfl),
      notes_concat_of_none _ (show Event.note? (.asked _) = none from rfl), hnoted]
  | ship header payload =>
    obtain ⟨htaken, hmade⟩ :=
      notes_concat_of_none d.record (e := .sent ⟨.trace, header, payload⟩) rfl
    exact ⟨rfl, by rw [htaken, hmade, hall]⟩

theorem Entries.whole (hs : Entries force d d') (hw : Whole d) (hl : Lossless d) :
    Whole d' ∧ Lossless d' := by
  induction hs with
  | refl => exact ⟨hw, hl⟩
  | tail _ he ih => exact ⟨he.whole ih.1, he.lossless ih.1 ih.2⟩

theorem Entry.half_full (he : Entry false d d') :
    ∃ es, d'.record = d.record ++ es ∧ HalfFull es := by
  cases he with
  | other e he =>
    refine ⟨[e], rfl, fun t ht htrace => ?_⟩
    obtain rfl := List.mem_singleton.1 ht
    exact absurd htrace he
  | kept code => exact ⟨[.noted code], rfl, by simp [HalfFull]⟩
  | held code => exact ⟨[.noted code] ++ [.asked false], List.append_assoc .., by simp [HalfFull]⟩
  | full code header hfull =>
    refine ⟨[.noted code] ++ [.asked true] ++
      [.sent ⟨.trace, header, ModuleId.log :: (d.trace.push code).notes⟩], by simp, ?_⟩
    obtain ⟨-, -, hhalf⟩ := pending?_eq_some (TraceLog.pending?_of_nearlyFull hfull false)
    simpa [HalfFull] using hhalf rfl
  | ship header payload hdue =>
    obtain ⟨rfl, -, hhalf⟩ := pending?_eq_some hdue
    exact ⟨_, rfl, by simpa [HalfFull] using hhalf rfl⟩

theorem Entries.half_full (hs : Entries false d d') :
    ∃ es, d'.record = d.record ++ es ∧ HalfFull es := by
  induction hs with
  | refl => exact ⟨[], (List.append_nil _).symm, nofun⟩
  | tail _ he ih =>
    obtain ⟨es, hrecord, hfull⟩ := ih
    obtain ⟨es', hrecord', hfull'⟩ := he.half_full
    refine ⟨es ++ es', by rw [hrecord', hrecord, List.append_assoc], fun t ht htrace => ?_⟩
    rcases List.mem_append.1 ht with ht | ht
    · exact hfull t ht htrace
    · exact hfull' t ht htrace

end Invariants

section Runs

variable {W : Type} [Medium W] [Clock W] [SignalSource W] {n : Node (Recorded W)}
  {turns : List (Turn W)}

def Turn.events (t : Turn W) : List Event :=
  (nodeAfter t.command t.before).world.log.drop t.before.world.log.length

theorem Turn.events_of_run {c : Command} {a : Answer} {n n' : Node (Recorded W)} {es : List Event}
    (hr : (perform c).run n = .ok (a, n')) (hl : n'.world.log = n.world.log ++ es) :
    Turn.events ⟨n, c, a⟩ = es := by
  have hafter : nodeAfter c n = n' := by rw [nodeAfter, hr]
  rw [Turn.events, hafter, hl, List.drop_left]

/-- Turns put all there is on record, and those that are not to ship the log on demand ship it at
least half full. -/
theorem Execution.record_of_turns {n₀ : Node (Recorded W)} (run : Execution n₀ turns n)
    (hs : n₀.Sound) (hl : n₀.world.log = []) : n.world.log = turns.flatMap Turn.events ∧
      ∀ t ∈ turns, t.command ≠ .shipTrace true → HalfFull t.events := by
  induction run with
  | start => exact ⟨hl, fun _ ht => absurd ht List.not_mem_nil⟩
  | @turn turns n n' c a prior hr ih =>
    obtain ⟨hlog, hfull⟩ := ih
    obtain ⟨m, hm, hmoves⟩ := (perform_outcome c (prior.sound hs).count_zero).of_run_eq hr
    obtain ⟨es, hes⟩ : ∃ es, n'.world.log = n.world.log ++ es := by
      obtain ⟨es, hes⟩ := Moves.log_prefix hmoves
      exact ⟨es, by rw [← hes, hm.keeps.1]⟩
    have hevents := Turn.events_of_run hr hes
    refine ⟨?_, fun t ht hc => ?_⟩
    · rw [List.flatMap_append, List.flatMap_singleton, hevents, ← hlog, hes]
    · rcases List.mem_append.1 ht with hbefore | hlast
      · exact hfull t hbefore hc
      · obtain rfl := List.mem_singleton.1 hlast
        obtain ⟨es', hes', hhalf⟩ := ((perform_entries hc n).of_run_eq hr).half_full
        rwa [Turn.events_of_run hr hes']
  | drift w _ ih => exact ih

theorem Execution.entries {n₀ : Node (Recorded W)} (run : Execution n₀ turns n)
    (hs : n₀.Sound) : Entries true n₀.diary n.diary :=
  run.keeps (I := fun _ n => Entries true n₀.diary n.diary) hs .refl
    (fun _ h he => h.trans (by rw [diary, diary, he.keeps.1, he.keeps.2.1]))
    (fun _ h hm => h.trans hm.entries) fun _ h => h

/-- In every run with the log on, and at every moment of the next command: what was shipped, in
order and followed by what waits, is all that was noted but what found the log full, which nothing
does if the medium was always found free. Every log that is shipped has some notes and fits a frame,
and is at least half full unless it is shipped on demand. -/
theorem Execution.notes_shipped_in_order {w : W} {identity : Identity} {settings : Settings}
    {capacity : Nat} (run : Execution (startRecorded w identity settings capacity) turns n)
    (traced : settings.trace = true) :
    (∀ c ps m k, Enters c n ps m → Moves m k → Whole k.diary ∧
      (.asked false ∉ k.world.log → notesTaken k.world.log = notesMade k.world.log)) ∧
    n.world.log = turns.flatMap Turn.events ∧
    ∀ t ∈ turns, t.command ≠ .shipTrace true → HalfFull t.events := by
  have hstart : (startRecorded w identity settings capacity).Sound := .start ..
  refine ⟨fun c ps m k he hm => ?_, run.record_of_turns hstart rfl⟩
  have hbegin : (startRecorded w identity settings capacity).diary = ⟨{ enabled := true }, []⟩ := by
    rw [← traced]
    rfl
  have hentered : n.diary = m.diary := by rw [diary, diary, he.keeps.1, he.keeps.2.1]
  have hentries := (run.entries hstart).trans (hentered ▸ hm.entries)
  rw [hbegin] at hentries
  obtain ⟨hwhole, hlossless⟩ := Entries.whole hentries .start fun _ => ⟨rfl, rfl⟩
  exact ⟨hwhole, fun hfree => (hlossless hfree).2⟩

end Runs

def crowdedLog : List (Happening Bench.World) :=
  .drift (.scripted 0 { busy := true, inbound := List.replicate 70 .badChecksum }) ::
      List.replicate 70 (.command .poll) ++
    [.drift (.scripted 0 {}), .command .poll, .command (.initRadio .low),
      .command (.shipTrace true), .command (.send 1 false)]

theorem notes_shipped_in_order_of_crowded_log : ∃ r,
    play (benchStart { trace := true }) crowdedLog = some r ∧
      r.2.world.log.filterMap Event.body? =
        [List.replicate 60 Mark.badChecksum.code, [Mark.mediumReady.code]] ∧
      r.2.trace.notes = [Mark.queued.code, Mark.sent.code, traceDigit 0] ∧ Whole r.2.diary ∧
      ∀ t ∈ r.1, t.command ≠ .shipTrace true → HalfFull t.events := by
  have hrun : (play (benchStart { trace := true }) crowdedLog).any (fun r =>
      r.2.world.log.filterMap Event.body? =
          [List.replicate 60 Mark.badChecksum.code, [Mark.mediumReady.code]] ∧
        r.2.trace.notes = [Mark.queued.code, Mark.sent.code, traceDigit 0]) = true := by
    decide +kernel
  obtain ⟨r, hr, hd⟩ := (Option.any_eq_true ..).1 hrun
  obtain ⟨hshipped, hnotes⟩ := of_decide_eq_true hd
  obtain ⟨hwhole, -, hfull⟩ := (Execution.of_play hr).notes_shipped_in_order rfl
  exact ⟨r, hr, hshipped, hnotes, (hwhole .poll [] r.2 r.2 (.nothing r.2) .refl).1, hfull⟩

end StarNet.Node
