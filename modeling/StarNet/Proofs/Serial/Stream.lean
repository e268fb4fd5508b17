import StarNet.Serial.Transceiver

/-!
What a receiver makes of a stream of bytes, and how calls of a transceiver get it off the line:
neither the readiness of the line nor the calls that the bytes are spread over make a difference.
-/
namespace StarNet

/-- A call that found nothing tells nothing. -/
def Reception.told : Reception → List Reception
  | .nothing => []
  | r => [r]

namespace Serial

namespace Receiver

/-- Takes bytes one after the other, and tells the receptions that they yield. -/
def feedAll (r : Receiver) : List UInt8 → List Reception × Receiver
  | [] => ([], r)
  | b :: bytes =>
    let (receptions, last) := (r.feed b).1.feedAll bytes
    ((r.feed b).2.toList ++ receptions, last)

variable {r : Receiver} {b low high : UInt8} {bytes data : List UInt8}

theorem feedAll_append (bytes more : List UInt8) : r.feedAll (bytes ++ more) =
    ((r.feedAll bytes).1 ++ ((r.feedAll bytes).2.feedAll more).1,
      ((r.feedAll bytes).2.feedAll more).2) := by
  induction bytes generalizing r with
  | nil => rfl
  | cons b bytes ih => simp only [List.cons_append, feedAll, ih, List.append_assoc]

theorem feedAll_cons_none {r' : Receiver} (h : r.feed b = (r', none)) :
    r.feedAll (b :: bytes) = r'.feedAll bytes := by
  simp only [feedAll, h, Option.toList_none, List.nil_append]

theorem told_of_feed {r' : Receiver} {reception : Reception}
    (h : r.feed b = (r', some reception)) : reception.told = [reception] := by
  unfold feed at h
  split at h <;> cases h
  unfold verdict
  split <;> rfl

/-- Between frames nothing but a sync byte has an effect. -/
theorem feedAll_noise (idle : r.stage = .sync) (noise : sync ∉ bytes) :
    r.feedAll bytes = ([], r) := by
  induction bytes with
  | nil => rfl
  | cons b bytes ih =>
    have hb : ¬ b = sync := fun hb => noise (hb ▸ List.mem_cons_self)
    have hfeed : r.feed b = (r, none) := by
      rw [feed, idle, feedSync, if_neg hb]
    rw [feedAll_cons_none hfeed, ih fun hb => noise (List.mem_cons_of_mem _ hb)]

theorem feedAll_data (hs : r.stage = .data) (hdata : data ≠ [])
    (hfill : r.fill + data.length = r.packet.length.toNat)
    (hfit : r.packet.length.toNat ≤ maxData) : r.feedAll data =
      ([], { r with
        stage := .checksumLow
        packet := { r.packet with buffer := r.packet.buffer.write r.fill data }
        fill := r.packet.length.toNat }) := by
  induction data generalizing r with
  | nil => exact absurd rfl hdata
  | cons b data ih =>
    have hfeed : r.feed b = (r.feedData b, none) := by rw [feed, hs]
    rw [feedAll_cons_none hfeed]
    rw [List.length_cons] at hfill
    have hwrite := r.packet.buffer.write_set b data (show r.fill < maxData by omega)
    cases data with
    | nil =>
      rw [List.length_nil] at hfill
      simp only [feedAll, feedData, Buffer.write_nil, ← hwrite, ← hfill, Nat.le_refl, if_true]
    | cons c data =>
      rw [List.length_cons] at hfill
      have hstage : (r.feedData b).stage = .data := if_neg (by omega)
      rw [ih hstage (by simp)
        (by simp only [feedData, List.length_cons]; omega) hfit]
      simp only [feedData, hwrite]

def opened (r : Receiver) (header : UInt8) : Receiver :=
  { r with stage := .length, packet := { r.packet with header := ⟨header⟩ } }

theorem feedAll_opened (idle : r.stage = .sync) (header : UInt8) (bytes : List UInt8) :
    r.feedAll (sync :: header :: bytes) = (r.opened header).feedAll bytes := by
  have hsync : r.feed sync = ({ r with stage := .header }, none) := by
    rw [feed, idle, feedSync, if_pos rfl]
  have hheader : feed { r with stage := .header } header = (r.opened header, none) := rfl
  rw [feedAll_cons_none hsync, feedAll_cons_none hheader]

def announced (r : Receiver) (header length : UInt8) : Receiver :=
  { r with
    stage := if length = 0 then .checksumLow else .data
    packet := ⟨⟨header⟩, length, r.packet.buffer⟩
    fill := 0 }

theorem feed_announced {header length : UInt8} (hfit : length.toNat ≤ maxData) :
    (r.opened header).feed length = (r.announced header length, none) := by
  have hset : (r.opened header).packet.setLength length =
      .ok { (r.opened header).packet with length } := by
    rw [Packet.setLength, if_neg (Nat.not_lt.2 hfit)]
  simp only [feed, opened, feedLength] at hset ⊢
  rw [hset]
  rfl

theorem feed_overlong {header length : UInt8} (hlong : maxData < length.toNat) :
    (r.opened header).feed length = ((r.opened header).reset, none) := by
  have hset : (r.opened header).packet.setLength length = .error .tooLong := by
    rw [Packet.setLength, if_pos hlong]
  simp only [feed, opened, feedLength] at hset ⊢
  rw [hset]

def filled (r : Receiver) (header length : UInt8) (data : List UInt8) : Receiver :=
  { r with
    stage := .checksumLow
    packet := ⟨⟨header⟩, length, r.packet.buffer.write 0 data⟩
    fill := length.toNat }

theorem feedAll_payload {header length : UInt8} (idle : r.stage = .sync)
    (hlength : length.toNat = data.length) (hfit : data.length ≤ maxData) :
    r.feedAll (sync :: header :: length :: data) = ([], r.filled header length data) := by
  rw [feedAll_opened idle, feedAll_cons_none (feed_announced (hlength ▸ hfit)), announced]
  by_cases hzero : length = 0
  · obtain rfl : data = [] := List.eq_nil_of_length_eq_zero (by rw [← hlength, hzero]; rfl)
    rw [if_pos hzero, feedAll, filled, Buffer.write_nil, hlength, List.length_nil]
  · have hdata : data ≠ [] := by
      rintro rfl
      exact hzero (UInt8.toNat_inj.1 hlength)
    rw [if_neg hzero, feedAll_data rfl hdata (by simp only [hlength]; omega)
      (by simp only [hlength]; exact hfit), filled]

theorem feedAll_short (hs : r.stage = .data) (h : r.fill + data.length < r.packet.length.toNat) :
    (r.feedAll data).1 = [] := by
  induction data generalizing r with
  | nil => rfl
  | cons b data ih =>
    rw [List.length_cons] at h
    have hfeed : r.feed b = (r.feedData b, none) := by rw [feed, hs]
    have hstage : (r.feedData b).stage = .data := if_neg (by omega)
    rw [feedAll_cons_none hfeed]
    apply ih hstage
    simp only [feedData]
    omega

/-- Whatever the receiver has in its buffer, it takes the bytes of a frame for that frame if the
checksum is right, and for a damaged one if not. -/
theorem feedAll_frame {header length : UInt8} (idle : r.stage = .sync)
    (hlength : length.toNat = data.length) (hfit : data.length ≤ maxData) :
    ∃ p r', p.header = ⟨header⟩ ∧ p.length = length ∧ p.payload = data ∧ r'.stage = .sync ∧
      r.feedAll (sync :: header :: length :: (data ++ [low, high])) =
        ([if checksum (header :: length :: data) = .ofBytes low high then .frame p
          else .badChecksum], r') := by
  have hpayload : (r.filled header length data).packet.payload = data :=
    Packet.payload_write hlength hfit
  refine ⟨(r.filled header length data).packet,
    { r.filled header length data with stage := .sync, checksumLow := low }, rfl, rfl, hpayload,
    rfl, ?_⟩
  rw [← List.cons_append, ← List.cons_append, ← List.cons_append, feedAll_append,
    feedAll_payload idle hlength hfit]
  have hframe : (r.filled header length data).packet.frame = header :: length :: data := by
    rw [Packet.frame, hpayload]; rfl
  rw [← hframe]
  rfl

end Receiver

def LineEvent.byte? : LineEvent → Option UInt8
  | .byte b => some b
  | _ => none

/-- The line breaks rather than keeping its bytes back for a while. -/
def LineEvent.Fails (e : LineEvent) : Prop := e = .readFails ∨ e = .readyFails

instance (e : LineEvent) : Decidable e.Fails :=
  inferInstanceAs (Decidable (e = .readFails ∨ e = .readyFails))

def bytesOf (events : List LineEvent) : List UInt8 := events.filterMap LineEvent.byte?

/-- Meets what a line holds, one event after the other, and tells the receptions that this yields.
Only bytes and failures make a difference. -/
def Receiver.hearAll (r : Receiver) : List LineEvent → List Reception × Receiver
  | [] => ([], r)
  | .byte b :: events =>
    let (receptions, last) := (r.feed b).1.hearAll events
    ((r.feed b).2.toList ++ receptions, last)
  | .notReady :: events | .readsNothing :: events => r.hearAll events
  | .readFails :: events | .readyFails :: events => r.reset.hearAll events

theorem Receiver.hearAll_append {r : Receiver} (events more : List LineEvent) :
    r.hearAll (events ++ more) =
      ((r.hearAll events).1 ++ ((r.hearAll events).2.hearAll more).1,
        ((r.hearAll events).2.hearAll more).2) := by
  induction events generalizing r with
  | nil => rfl
  | cons e events ih =>
    cases e with
    | byte b => simp only [List.cons_append, hearAll, ih, List.append_assoc]
    | _ => exact ih

theorem Receiver.hearAll_of_sound {r : Receiver} {events : List LineEvent}
    (sound : ∀ e ∈ events, ¬ e.Fails) : r.hearAll events = r.feedAll (bytesOf events) := by
  induction events generalizing r with
  | nil => rfl
  | cons e events ih =>
    have hrest (r' : Receiver) : r'.hearAll events = r'.feedAll (bytesOf events) :=
      ih fun e' he' => sound e' (List.mem_cons_of_mem _ he')
    have he := sound e List.mem_cons_self
    cases e with
    | byte b =>
      rw [hearAll, hrest]
      rfl
    | notReady => exact hrest r
    | readsNothing => exact hrest r
    | readFails => exact absurd (.inl rfl) he
    | readyFails => exact absurd (.inr rfl) he

/-- A call takes some of the events off the line, and tells what they yield. -/
theorem receiveFrom_takes (r : Receiver) (events : List LineEvent) :
    ∃ taken, events = taken ++ (receiveFrom r events).2.2 ∧ (events ≠ [] → taken ≠ []) ∧
      r.hearAll taken = ((receiveFrom r events).1.told, (receiveFrom r events).2.1) := by
  induction events generalizing r with
  | nil => exact ⟨[], rfl, id, rfl⟩
  | cons e events ih =>
    have hne (taken : List LineEvent) : e :: events ≠ [] → e :: taken ≠ [] :=
      fun _ => List.cons_ne_nil _ _
    cases e with
    | byte b =>
      cases hfeed : r.feed b with
      | mk r' reception =>
        cases reception with
        | some reception =>
          refine ⟨[.byte b], ?_, hne [], ?_⟩
          · simp only [receiveFrom, hfeed, List.singleton_append]
          · simp only [receiveFrom, hfeed, Receiver.told_of_feed hfeed]
            simp [Receiver.hearAll, hfeed]
        | none =>
          obtain ⟨taken, hevents, -, htold⟩ := ih r'
          refine ⟨.byte b :: taken, ?_, hne taken, ?_⟩
          · simp only [receiveFrom, hfeed, List.cons_append]
            rw [← hevents]
          · simp only [receiveFrom, hfeed, Receiver.hearAll, Option.toList_none,
              List.nil_append, htold]
    | notReady => exact ⟨[.notReady], rfl, hne [], rfl⟩
    | readsNothing => exact ⟨[.readsNothing], rfl, hne [], rfl⟩
    | readFails => exact ⟨[.readFails], rfl, hne [], rfl⟩
    | readyFails => exact ⟨[.readyFails], rfl, hne [], rfl⟩

namespace Transceiver

variable {T : Type} {t : Transceiver T} {schedule : List (List LineEvent)}

/-- Calls to receive one after the other, before each of which something may come in. -/
def listen (t : Transceiver T) : List (List LineEvent) → List Reception × Transceiver T
  | [] => ([], t)
  | arriving :: schedule =>
    let (reception, t) := { t with incoming := t.incoming ++ arriving }.receive
    let (receptions, t) := t.listen schedule
    (reception.told ++ receptions, t)

theorem listen_append (more : List (List LineEvent)) : t.listen (schedule ++ more) =
    ((t.listen schedule).1 ++ ((t.listen schedule).2.listen more).1,
      ((t.listen schedule).2.listen more).2) := by
  induction schedule generalizing t with
  | nil => rfl
  | cons arriving schedule ih => simp only [List.cons_append, listen, ih, List.append_assoc]

/-- What calls tell is what the events yield that they took off the line. -/
theorem listen_takes (t : Transceiver T) (schedule : List (List LineEvent)) :
    ∃ taken, t.incoming ++ schedule.flatten = taken ++ (t.listen schedule).2.incoming ∧
      t.receiver.hearAll taken = ((t.listen schedule).1, (t.listen schedule).2.receiver) := by
  induction schedule generalizing t with
  | nil => exact ⟨[], by simp [listen], rfl⟩
  | cons arriving schedule ih =>
    rw [List.flatten_cons, ← List.append_assoc]
    obtain ⟨first, hfirst, -, hheard⟩ := receiveFrom_takes t.receiver (t.incoming ++ arriving)
    obtain ⟨rest, hrest, hheard'⟩ := ih { t with
      incoming := (receiveFrom t.receiver (t.incoming ++ arriving)).2.2
      receiver := (receiveFrom t.receiver (t.incoming ++ arriving)).2.1 }
    refine ⟨first ++ rest, ?_, ?_⟩
    · rw [hfirst, List.append_assoc, hrest, List.append_assoc]
      rfl
    · rw [Receiver.hearAll_append, hheard, hheard']
      rfl

theorem listen_replicate_incoming {n : Nat} (h : t.incoming.length ≤ n) :
    (t.listen (List.replicate n [])).2.incoming = [] := by
  induction n generalizing t with
  | zero => exact List.eq_nil_of_length_eq_zero (Nat.le_zero.1 h)
  | succ n ih =>
    obtain ⟨taken, htaken, hne, -⟩ := receiveFrom_takes t.receiver t.incoming
    rw [List.replicate_succ]
    refine Eq.trans ?_ (@ih { t with
      incoming := (receiveFrom t.receiver t.incoming).2.2
      receiver := (receiveFrom t.receiver t.incoming).2.1 } ?_)
    · simp only [listen, receive, List.append_nil]
    · rcases Nat.eq_zero_or_pos t.incoming.length with hzero | hpos
      · rw [htaken, List.length_append] at hzero
        exact Nat.le_trans (Nat.le_of_eq (Nat.eq_zero_of_add_eq_zero_left hzero)) (Nat.zero_le n)
      · have htaken' := congrArg List.length htaken
        have := List.length_pos_iff.2 (hne (List.length_pos_iff.1 hpos))
        rw [List.length_append] at htaken'
        simp only
        omega

theorem listen_drains {n : Nat} (h : (t.incoming ++ schedule.flatten).length ≤ n) :
    t.receiver.hearAll (t.incoming ++ schedule.flatten) =
        ((t.listen (schedule ++ List.replicate n [])).1,
          (t.listen (schedule ++ List.replicate n [])).2.receiver) ∧
      (t.listen (schedule ++ List.replicate n [])).2.incoming = [] := by
  have hall : (schedule ++ List.replicate n []).flatten = schedule.flatten := by
    rw [List.flatten_append, List.flatten_replicate_nil, List.append_nil]
  obtain ⟨first, hfirst, -⟩ := t.listen_takes schedule
  have hdone : (t.listen (schedule ++ List.replicate n [])).2.incoming = [] := by
    rw [listen_append]
    apply listen_replicate_incoming
    rw [hfirst, List.length_append] at h
    omega
  obtain ⟨taken, htaken, hheard⟩ := t.listen_takes (schedule ++ List.replicate n [])
  rw [hall, hdone, List.append_nil] at htaken
  rw [htaken]
  exact ⟨hheard, hdone⟩

theorem listen_all {n : Nat} (sound : ∀ e ∈ t.incoming ++ schedule.flatten, ¬ e.Fails)
    (h : (t.incoming ++ schedule.flatten).length ≤ n) :
    t.receiver.feedAll (bytesOf (t.incoming ++ schedule.flatten)) =
        ((t.listen (schedule ++ List.replicate n [])).1,
          (t.listen (schedule ++ List.replicate n [])).2.receiver) ∧
      (t.listen (schedule ++ List.replicate n [])).2.incoming = [] := by
  rw [← Receiver.hearAll_of_sound sound]
  exact listen_drains h

/-- A call to receive: what comes in before it, and the caller's packet as it is then. -/
structure Call where
  arriving : List LineEvent
  mine : Packet

/-- Calls one after the other: what each of them tells, and the caller's packet after it. -/
def collect (t : Transceiver T) : List Call → List (Reception × Packet) × Transceiver T
  | [] => ([], t)
  | c :: calls =>
    let (reception, t) := { t with incoming := t.incoming ++ c.arriving }.receive
    let (collected, t) := t.collect calls
    ((reception, reception.into c.mine) :: collected, t)

variable {calls : List Call}

theorem collect_listen : (t.collect calls).1.flatMap (·.1.told) =
      (t.listen (calls.map Call.arriving)).1 ∧
    (t.collect calls).2 = (t.listen (calls.map Call.arriving)).2 := by
  induction calls generalizing t with
  | nil => exact ⟨rfl, rfl⟩
  | cons c calls ih =>
    obtain ⟨htold, hlast⟩ := @ih { t with incoming := t.incoming ++ c.arriving }.receive.2
    refine ⟨?_, hlast⟩
    simp only [collect, List.flatMap_cons, htold]
    rfl

theorem collect_unchanged (h : ∀ p, .frame p ∉ (t.listen (calls.map Call.arriving)).1) :
    (t.collect calls).1.map Prod.snd = calls.map Call.mine := by
  induction calls generalizing t with
  | nil => rfl
  | cons c calls ih =>
    simp only [List.map_cons, listen, List.mem_append, not_or, forall_and] at h
    simp only [collect, List.map_cons, List.cons.injEq]
    refine ⟨?_, ih h.2⟩
    cases hr : ({ t with incoming := t.incoming ++ c.arriving } : Transceiver T).receive.1 with
    | nothing => rfl
    | badChecksum => rfl
    | frame p =>
      rw [hr] at h
      exact absurd List.mem_cons_self (h.1 p)

theorem collect_line {T' : Type} (line : T') :
    ((Transceiver.mk t.receiver t.incoming line).collect calls).1 = (t.collect calls).1 := by
  induction calls generalizing t with
  | nil => rfl
  | cons c calls ih =>
    simp only [collect, receive, List.cons.injEq, true_and]
    exact @ih { t with
      receiver := (receiveFrom t.receiver (t.incoming ++ c.arriving)).2.1
      incoming := (receiveFrom t.receiver (t.incoming ++ c.arriving)).2.2 }

theorem collect_all {idle : List Call}
    (sound : ∀ e ∈ t.incoming ++ (calls.map Call.arriving).flatten, ¬ e.Fails)
    (quiet : ∀ c ∈ idle, c.arriving = [])
    (enough : (t.incoming ++ (calls.map Call.arriving).flatten).length ≤ idle.length) :
    t.receiver.feedAll (bytesOf (t.incoming ++ (calls.map Call.arriving).flatten)) =
        ((t.collect (calls ++ idle)).1.flatMap (·.1.told),
          (t.collect (calls ++ idle)).2.receiver) ∧
      (t.collect (calls ++ idle)).2.incoming = [] := by
  have hidle : idle.map Call.arriving = List.replicate idle.length [] :=
    List.eq_replicate_iff.2 ⟨List.length_map _, by simpa using quiet⟩
  obtain ⟨htold, hlast⟩ := @collect_listen T t (calls ++ idle)
  rw [List.map_append, hidle] at htold hlast
  rw [htold, hlast]
  exact listen_all sound enough

end Transceiver
end Serial
end StarNet
