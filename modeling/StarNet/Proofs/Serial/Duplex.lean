import StarNet.Proofs.Serial.RoundTrip

/-!
Sending and receiving over one line. Whatever the writes do, taking a few bytes at a time or
failing after any of them, each transmission lets a front part of its frame go out, behind what
went out of those before it. The calls to receive notice nothing of that.
-/
namespace StarNet
namespace Serial

/-- A line of which it is known what went out on it. A write lets some of its bytes go out, whether
it fails or not. If it does not, it answers how many, and they are not none. Flushing lets none
go out. -/
class Wired (T : Type) [Transmitter T] where
  /-- No write stalls, now or later. -/
  Flowing : T → Prop
  out : T → List UInt8
  write_out : ∀ {line bytes}, Flowing line → bytes ≠ [] → ∃ n answer line',
    Transmitter.write line bytes = (answer, line') ∧ Flowing line' ∧
    out line' = out line ++ bytes.take n ∧ n ≤ bytes.length ∧
    (answer = some n ∧ 0 < n ∨ answer = none)
  flush_out : ∀ {line}, Flowing line →
    Flowing (Transmitter.flush line).2 ∧ out (Transmitter.flush line).2 = out line

/-- A write: the bytes it was given, those of them that went out, and how many it answered, which is
nothing if it failed. -/
structure Attempt where
  offered : List UInt8
  sent : List UInt8
  answer : Option Nat
  deriving DecidableEq

namespace Attempt

def Succeeds (a : Attempt) : Prop := a.answer = some a.sent.length ∧ a.sent ≠ []

theorem Succeeds.ne_none {a : Attempt} (h : a.Succeeds) : a.answer ≠ none := by
  rw [h.1]
  exact Option.some_ne_none _

def Finishes (a : Attempt) (before : List Attempt) (bytes : List UInt8) : Prop :=
  before.flatMap sent ++ a.offered = bytes ∧ a.sent = a.offered

end Attempt

/-- A line with a record of the writes to it. -/
structure Watched (T : Type) where
  line : T
  attempts : List Attempt := []

section

variable {T : Type} [Transmitter T] [Wired T]

open Wired

instance : Transmitter (Watched T) where
  write w bytes :=
    let (answer, line) := Transmitter.write w.line bytes
    let sent := (out line).drop (out w.line).length
    (answer, ⟨line, w.attempts ++ [⟨bytes, sent, answer⟩]⟩)
  flush w :=
    let (flushed, line) := Transmitter.flush w.line
    (flushed, { w with line })
  ready? w :=
    let (ready?, line) := Transmitter.ready? w.line
    (ready?, { w with line })

variable {w w' w'' : Watched T} {attempts attempts' : List Attempt}

structure Puts (w : Watched T) (attempts : List Attempt) (w' : Watched T) : Prop where
  flowing : Flowing w'.line
  out : out w'.line = out w.line ++ attempts.flatMap Attempt.sent
  attempts : w'.attempts = w.attempts ++ attempts

theorem Puts.refl (h : Flowing w.line) : Puts w [] w :=
  ⟨h, (List.append_nil _).symm, (List.append_nil _).symm⟩

theorem Puts.trans (h : Puts w attempts w') (h' : Puts w' attempts' w'') :
    Puts w (attempts ++ attempts') w'' :=
  ⟨h'.flowing, by rw [h'.out, h.out, List.append_assoc, List.flatMap_append],
    by rw [h'.attempts, h.attempts, List.append_assoc]⟩

theorem Puts.flush (h : Puts w attempts w') : Puts w attempts (Transmitter.flush w').2 := by
  obtain ⟨hflowing, hout⟩ := flush_out h.flowing
  exact ⟨hflowing, hout.trans h.out, h.attempts⟩

/-- What comes of writing some bytes: all attempts succeed and all of the bytes go out, or the last
attempt fails. It was offered what comes next, of which some went out. -/
inductive Writes (bytes : List UInt8) : WriteResult → List Attempt → Prop where
  | done {attempts : List Attempt} : (∀ a ∈ attempts, a.Succeeds) →
      attempts.flatMap Attempt.sent = bytes → Writes bytes .done attempts
  | failed {before : List Attempt} {a : Attempt} : (∀ b ∈ before, b.Succeeds) →
      a.answer = none → a.sent <+: a.offered →
      before.flatMap Attempt.sent ++ a.offered <+: bytes → Writes bytes .failed (before ++ [a])

omit [Transmitter T] [Wired T] in
theorem Writes.behind {front bytes : List UInt8} {result : WriteResult}
    (h : ∀ a ∈ attempts, a.Succeeds) (hfront : attempts.flatMap Attempt.sent = front)
    (hw : Writes bytes result attempts') :
    Writes (front ++ bytes) result (attempts ++ attempts') := by
  cases hw with
  | done h' hbytes =>
    refine .done (List.forall_mem_append.2 ⟨h, h'⟩) ?_
    rw [List.flatMap_append, hfront, hbytes]
  | failed h' hnone hsent hoffered =>
    rw [← List.append_assoc]
    refine .failed (List.forall_mem_append.2 ⟨h, h'⟩) hnone hsent ?_
    rw [List.flatMap_append, hfront, List.append_assoc]
    exact (List.prefix_append_right_inj front).2 hoffered

theorem write_eq (h : Flowing w.line) {bytes : List UInt8} (hne : bytes ≠ []) :
    ∃ n answer w', Transmitter.write w bytes = (answer, w') ∧
      Puts w [⟨bytes, bytes.take n, answer⟩] w' ∧ n ≤ bytes.length ∧
      (answer = some n ∧ 0 < n ∨ answer = none) := by
  obtain ⟨n, answer, line, hwrite, hflowing, hout, hanswer⟩ := write_out h hne
  have hsent : (out line).drop (out w.line).length = bytes.take n := by rw [hout, List.drop_left]
  refine ⟨n, answer, ⟨line, w.attempts ++ [⟨bytes, bytes.take n, answer⟩]⟩, ?_,
    ⟨hflowing, ?_, rfl⟩, hanswer⟩
  · simp only [Transmitter.write, hwrite, hsent]
  · rw [hout, List.flatMap_singleton]

theorem writeAll_out (bytes : List UInt8) (h : Flowing w.line) : ∃ result attempts w',
    writeAll w bytes = (result, w') ∧ Puts w attempts w' ∧ Writes bytes result attempts := by
  induction hlen : bytes.length using Nat.strongRecOn generalizing bytes w with
  | ind m ih =>
    cases bytes with
    | nil => exact ⟨.done, [], w, by rw [writeAll], .refl h, .done nofun rfl⟩
    | cons b bytes =>
      obtain ⟨n, answer, next, hwrite, hputs, hle, hanswer⟩ :=
        write_eq h (List.cons_ne_nil b bytes)
      rcases hanswer with ⟨rfl, hpos⟩ | rfl
      · obtain ⟨k, rfl⟩ : ∃ k, n = k + 1 := ⟨n - 1, by omega⟩
        have hall : (b :: bytes).take (k + 1) ++ bytes.drop k = b :: bytes := by
          rw [List.take_succ_cons, List.cons_append, List.take_append_drop]
        have hfirst : ∀ a ∈ [Attempt.mk (b :: bytes) ((b :: bytes).take (k + 1)) (some (k + 1))],
            a.Succeeds := by
          intro a ha
          obtain rfl := List.mem_singleton.1 ha
          exact ⟨by rw [List.length_take_of_le hle], List.cons_ne_nil _ _⟩
        rw [List.length_cons] at hlen hle
        obtain ⟨result, attempts, last, hrest, hputs', hwrites⟩ :=
          ih (bytes.drop k).length (by rw [List.length_drop]; omega) (bytes.drop k)
            hputs.flowing rfl
        refine ⟨result, _, last, ?_, hputs.trans hputs', ?_⟩
        · rw [writeAll, hwrite]
          exact hrest
        · have hbehind := hwrites.behind hfirst (List.append_nil _)
          rwa [hall] at hbehind
      · refine ⟨.failed, _, next, by rw [writeAll, hwrite], hputs, ?_⟩
        have hfirst : ∀ a ∈ ([] : List Attempt), a.Succeeds := nofun
        exact .failed hfirst rfl (List.take_prefix ..) List.prefix_rfl

theorem writeParts_out (parts : List (List UInt8)) (h : Flowing w.line) :
    ∃ result attempts w', writeParts w parts = (result, w') ∧ Puts w attempts w' ∧
      Writes parts.flatten result attempts := by
  induction parts generalizing w with
  | nil => exact ⟨.done, [], w, rfl, .refl h, .done nofun rfl⟩
  | cons part parts ih =>
    obtain ⟨result, attempts, next, hpart, hputs, hwrites⟩ := writeAll_out part h
    rw [List.flatten_cons]
    cases hwrites with
    | done hall hbytes =>
      obtain ⟨result, attempts', last, hparts, hputs', hwrites⟩ := ih hputs.flowing
      refine ⟨result, _, last, ?_, hputs.trans hputs', hwrites.behind hall hbytes⟩
      rw [writeParts, hpart]
      exact hparts
    | failed hall hnone hsent hoffered =>
      refine ⟨.failed, _, next, by rw [writeParts, hpart], hputs, ?_⟩
      exact .failed hall hnone hsent (hoffered.trans (List.prefix_append part _))

/-- What a transmission lets go out, given how it was written: a front part of its frame, all of it
exactly if it fits and no write fails but one that lets the rest of the frame go out, and nothing
exactly if it does not fit or the very first write fails and lets nothing go out. -/
structure Goes (f : Transmission) (sent : List UInt8) (attempts : List Attempt) : Prop where
  pieces : sent = attempts.flatMap Attempt.sent
  front : sent <+: wireBytes f
  whole : sent = wireBytes f ↔ f.payload.length ≤ maxData ∧
    ∀ before a after, attempts = before ++ a :: after → a.answer = none →
      a.Finishes before (wireBytes f)
  nothing : sent = [] ↔ maxData < f.payload.length ∨
    ∃ a, attempts.head? = some a ∧ a.answer = none ∧ a.sent = []

theorem Goes.of_long {f : Transmission} (h : maxData < f.payload.length) : Goes f [] [] where
  pieces := rfl
  front := List.nil_prefix
  whole := ⟨fun h => absurd h (List.cons_ne_nil _ _).symm, fun h' => absurd h'.1 (Nat.not_le.2 h)⟩
  nothing := ⟨fun _ => .inl h, fun _ => rfl⟩

theorem eq_last_of_failed {before before' after : List Attempt} {a a' : Attempt}
    (hall : ∀ b ∈ before, b.Succeeds) (hsplit : before ++ [a] = before' ++ a' :: after)
    (hnone : a'.answer = none) : before' = before ∧ a' = a := by
  rcases List.eq_nil_or_concat after with rfl | ⟨after, last, rfl⟩
  · obtain ⟨hbefore, hlast⟩ := List.append_inj' hsplit rfl
    exact ⟨hbefore.symm, (List.singleton_inj.1 hlast).symm⟩
  · have hconcat : before ++ [a] = (before' ++ a' :: after) ++ [last] := by
      rw [hsplit, List.concat_eq_append, List.append_assoc]
      rfl
    have hbefore := (List.append_inj' hconcat rfl).1
    exact absurd hnone (hall a' (by simp [hbefore])).ne_none

omit [Transmitter T] [Wired T] in
theorem Goes.of_done {f : Transmission} (fit : f.payload.length ≤ maxData)
    (hall : ∀ a ∈ attempts, a.Succeeds) (hsent : attempts.flatMap Attempt.sent = wireBytes f) :
    Goes f (attempts.flatMap Attempt.sent) attempts where
  pieces := rfl
  front := hsent ▸ List.prefix_rfl
  whole := by
    refine ⟨fun _ => ⟨fit, fun before a after hsplit hnone => ?_⟩, fun _ => hsent⟩
    exact absurd hnone (hall a (hsplit ▸ List.mem_append_right _ List.mem_cons_self)).ne_none
  nothing := by
    constructor
    · intro hnil
      exact absurd (hsent.symm.trans hnil) (List.cons_ne_nil _ _)
    · rintro (hlong | ⟨a, hhead, hnone, -⟩)
      · exact absurd fit (Nat.not_le.2 hlong)
      · exact absurd hnone (hall a (List.mem_of_head? hhead)).ne_none

theorem Goes.of_failed {f : Transmission} {before : List Attempt} {a : Attempt}
    (fit : f.payload.length ≤ maxData) (hall : ∀ b ∈ before, b.Succeeds)
    (hnone : a.answer = none) (hsent : a.sent <+: a.offered)
    (hoffered : before.flatMap Attempt.sent ++ a.offered <+: wireBytes f) :
    Goes f ((before ++ [a]).flatMap Attempt.sent) (before ++ [a]) := by
  have hflat : (before ++ [a]).flatMap Attempt.sent = before.flatMap Attempt.sent ++ a.sent := by
    rw [List.flatMap_append, List.flatMap_singleton]
  have hfront := (List.prefix_append_right_inj (before.flatMap Attempt.sent)).2 hsent
  refine ⟨rfl, ?_, ⟨fun hwhole => ⟨fit, ?_⟩, ?_⟩, ⟨fun hnil => .inr ?_, ?_⟩⟩
  · rw [hflat]
    exact hfront.trans hoffered
  · intro before' a' after hsplit hnone'
    obtain ⟨rfl, rfl⟩ := eq_last_of_failed hall hsplit hnone'
    rw [hflat] at hwhole
    have hrest := hoffered.eq_of_length_le (hwhole ▸ hfront.length_le)
    exact ⟨hrest, List.append_cancel_left (hwhole.trans hrest.symm)⟩
  · rintro ⟨-, hfinishes⟩
    obtain ⟨hrest, hall⟩ := hfinishes before a [] rfl hnone
    rw [hflat, hall, hrest]
  · rw [hflat, List.append_eq_nil_iff] at hnil
    cases before with
    | nil => exact ⟨a, rfl, hnone, hnil.2⟩
    | cons b before =>
      exact absurd (List.append_eq_nil_iff.1 hnil.1).1 (hall b List.mem_cons_self).2
  · rintro (hlong | ⟨b, hhead, hnone', hnil⟩)
    · exact absurd fit (Nat.not_le.2 hlong)
    · cases before with
      | nil =>
        cases hhead
        rw [hflat, hnil]
        rfl
      | cons c before =>
        cases hhead
        exact absurd hnone' (hall b List.mem_cons_self).ne_none

theorem transmit_out {t : Transceiver (Watched T)} (f : Transmission) (h : Flowing t.line.line) :
    ∃ attempts w', Medium.transmit t f = .ok { t with line := w' } ∧
      Puts t.line attempts w' ∧ Goes f (attempts.flatMap Attempt.sent) attempts := by
  by_cases hfit : f.payload.length ≤ maxData
  · obtain ⟨result, attempts, next, hparts, hputs, hwrites⟩ :=
      writeParts_out (parts (packetOf f)) h
    rw [flatten_parts_packetOf hfit] at hwrites
    cases hwrites with
    | done hall hsent =>
      exact ⟨_, _, transmit_of_parts hfit hparts (by simp), hputs.flush, .of_done hfit hall hsent⟩
    | failed hall hnone hsent hoffered =>
      exact ⟨_, _, transmit_of_parts hfit hparts (by simp), hputs,
        .of_failed hfit hall hnone hsent hoffered⟩
  · have hlong := Nat.lt_of_not_le hfit
    exact ⟨[], t.line, transmit_of_long hlong, .refl h, .of_long hlong⟩

namespace Transceiver

inductive Act where
  | send (f : Transmission)
  | collect (c : Call)

inductive Deed where
  | sent (f : Transmission) (bytes : List UInt8) (attempts : List Attempt)
  | collected (told : Reception) (mine : Packet)
  deriving DecidableEq

def Act.frame? : Act → Option Transmission
  | .send f => some f
  | .collect _ => none

def Act.call? : Act → Option Call
  | .send _ => none
  | .collect c => some c

def Deed.frame? : Deed → Option Transmission
  | .sent f _ _ => some f
  | .collected _ _ => none

def Deed.collected? : Deed → Option (Reception × Packet)
  | .sent _ _ _ => none
  | .collected told mine => some (told, mine)

def Deed.bytes : Deed → List UInt8
  | .sent _ bytes _ => bytes
  | .collected _ _ => []

def carryOut (t : Transceiver (Watched T)) :
    List Act → Except Fault (List Deed × Transceiver (Watched T))
  | [] => .ok ([], t)
  | .send f :: acts => do
    let next ← Medium.transmit t f
    let (deeds, last) ← next.carryOut acts
    return (.sent f ((out next.line.line).drop (out t.line.line).length)
      (next.line.attempts.drop t.line.attempts.length) :: deeds, last)
  | .collect c :: acts => do
    let (reception, next) := { t with incoming := t.incoming ++ c.arriving }.receive
    let (deeds, last) ← next.carryOut acts
    return (.collected reception (reception.into c.mine) :: deeds, last)

/-- What was sent and what was collected have nothing to do with each other: transmissions go out
one behind the other, each as far as its writes let it, and what is collected is what the calls
alone would have collected. -/
structure Parted (t : Transceiver (Watched T)) (acts : List Act) (deeds : List Deed)
    (last : Transceiver (Watched T)) : Prop where
  out : out last.line.line = out t.line.line ++ deeds.flatMap Deed.bytes
  frames : deeds.filterMap Deed.frame? = acts.filterMap Act.frame?
  goes : ∀ f bytes attempts, .sent f bytes attempts ∈ deeds → Goes f bytes attempts
  collected : deeds.filterMap Deed.collected? = (t.collect (acts.filterMap Act.call?)).1

/-- Whatever a caller sends and collects in turn, over a line of which no write stalls: nothing
breaks off, the transmissions go out one behind the other, each as far as its writes let it, and
the calls tell what they would have told without the transmissions. A write that fails may still
have let any of its bytes go out, and even all of them. -/
theorem sends_and_calls_keep_apart {t : Transceiver (Watched T)} (flowing : Flowing t.line.line)
    (acts : List Act) : ∃ deeds last, t.carryOut acts = .ok (deeds, last) ∧
      t.Parted acts deeds last := by
  induction acts generalizing t with
  | nil => exact ⟨[], t, rfl, (List.append_nil _).symm, rfl, nofun, rfl⟩
  | cons act acts ih =>
    cases act with
    | send f =>
      obtain ⟨attempts, w, htransmit, hputs, hgoes⟩ := transmit_out f flowing
      obtain ⟨deeds, last, hrun, hparted⟩ := @ih { t with line := w } hputs.flowing
      refine ⟨.sent f (attempts.flatMap Attempt.sent) attempts :: deeds, last, ?_, ?_, ?_, ?_, ?_⟩
      · rw [carryOut, htransmit]
        simp only [bind, Except.bind, hrun, hputs.out, hputs.attempts, List.drop_left, pure,
          Except.pure]
      · rw [hparted.out, hputs.out, List.append_assoc]
        rfl
      · exact congrArg (f :: ·) hparted.frames
      · intro g bytes attempts' hmem
        rcases List.mem_cons.1 hmem with heq | hmem
        · cases heq
          exact hgoes
        · exact hparted.goes g bytes attempts' hmem
      · exact hparted.collected.trans (collect_line w)
    | collect c =>
      let heard := { t with incoming := t.incoming ++ c.arriving }.receive
      obtain ⟨deeds, last, hrun, hparted⟩ := @ih heard.2 flowing
      refine ⟨.collected heard.1 (heard.1.into c.mine) :: deeds, last, ?_, hparted.out,
        hparted.frames, ?_, congrArg (_ :: ·) hparted.collected⟩
      · show (heard.2.carryOut acts).bind _ = _
        rw [hrun]
        rfl
      · intro g bytes attempts hmem
        rcases List.mem_cons.1 hmem with heq | hmem
        · cases heq
        · exact hparted.goes g bytes attempts hmem

end Transceiver

end

end Serial

namespace Bench

open Serial

theorem UartLimits.taken?_eq {l : UartLimits} {length : Nat} (h : l.stalls = false)
    (hpos : 0 < length) :
    l.taken? length = none ∨ ∃ n, l.taken? length = some n ∧ 0 < n ∧ n ≤ length := by
  have hoffered : 0 < (if l.chunk = 0 then length else min l.chunk length) ∧
      (if l.chunk = 0 then length else min l.chunk length) ≤ length := by
    split <;> omega
  unfold taken?
  rcases l.budget with _ | _ | budget
  · exact .inr ⟨_, rfl, hoffered⟩
  · exact .inl (by simp [h])
  · exact .inr ⟨_, rfl, by omega, by omega⟩

instance : Wired Uart where
  Flowing u := u.limits.stalls = false
  out u := u.onWire.toList
  write_out {line bytes} h hne := by
    rcases UartLimits.taken?_eq h (List.length_pos_iff.2 hne) with hnone | ⟨n, hsome, hpos, hle⟩
    · exact ⟨0, none, line, by simp only [Transmitter.write, Uart.write, hnone], h, by simp,
        Nat.zero_le _, .inr rfl⟩
    · refine ⟨n, some n, (line.write bytes).2, ?_, ?_, ?_, hle, .inl ⟨rfl, hpos⟩⟩ <;>
        simp only [Transmitter.write, Uart.write, hsome, h, Array.toList_append]
  flush_out h := ⟨h, rfl⟩

def faltering : Transceiver (Watched Uart) where
  line := { line := { limits := { chunk := 2, budget := some 9, flushFails := true } } }

def falteringActs : List Transceiver.Act :=
  [.collect ⟨[.byte sync, .byte 0x22], { length := 9 }⟩, .send ⟨.data, ⟨0x21⟩, [sync, 7]⟩,
    .collect ⟨[.byte 0, .notReady, .byte 0x19], { length := 8 }⟩,
    .send ⟨.data, ⟨0x21⟩, List.replicate (maxData + 1) 7⟩, .send ⟨.ack, ⟨0x23⟩, []⟩,
    .collect ⟨[.byte 0x10], { length := 7 }⟩, .send ⟨.data, ⟨0x21⟩, [7]⟩, .collect ⟨[], {}⟩]

/-- The calls collect that frame, and what becomes of the transmissions is in the record. -/
theorem faltering_sends_and_calls : ∃ deeds last,
    faltering.carryOut falteringActs = .ok (deeds, last) ∧
    faltering.Parted falteringActs deeds last ∧
    deeds.filterMap Transceiver.Deed.collected? =
      [(.nothing, { length := 9 }), (.nothing, { length := 8 }),
        (.frame { header := ⟨0x22⟩ }, { header := ⟨0x22⟩ }), (.nothing, {})] := by
  obtain ⟨deeds, last, hrun, hparted⟩ :=
    Transceiver.sends_and_calls_keep_apart (t := faltering) rfl falteringActs
  exact ⟨deeds, last, hrun, hparted, hparted.collected.trans (by decide +kernel)⟩

/-- A line on which every write lets all of its bytes go out. After the first few they fail all the
same. -/
structure Tardy where
  sound : Nat
  onWire : List UInt8 := []

instance : Transmitter Tardy where
  write l bytes :=
    (if l.sound = 0 then none else some bytes.length, ⟨l.sound - 1, l.onWire ++ bytes⟩)
  flush l := (true, l)
  ready? l := (some true, l)

instance : Wired Tardy where
  Flowing _ := True
  out := Tardy.onWire
  write_out {line bytes} _ hne := by
    refine ⟨bytes.length, _, _, rfl, trivial, by rw [List.take_length], Nat.le_refl _, ?_⟩
    split
    · exact .inr rfl
    · exact .inl ⟨rfl, List.length_pos_iff.2 hne⟩
  flush_out h := ⟨h, rfl⟩

def tardy : Transceiver (Watched Tardy) where
  line := { line := { sound := 2 } }

def oneByte : Transmission := ⟨.data, ⟨0x21⟩, [5]⟩

def oneTooMany : Transmission := ⟨.data, ⟨0x21⟩, List.replicate (maxData + 1) 7⟩

/-- The write of the checksum fails, and yet the whole frame is out. For a payload that is too long
no write fails, and nothing is out. -/
theorem whole_frame_out_though_write_fails : ∃ deeds last,
    tardy.carryOut [.send oneByte, .send oneTooMany] = .ok (deeds, last) ∧
    deeds = [.sent oneByte (wireBytes oneByte) [⟨[sync], [sync], some 1⟩,
        ⟨[0x21, 1, 5], [0x21, 1, 5], some 3⟩, ⟨[0xE0, 0x59], [0xE0, 0x59], none⟩],
      .sent oneTooMany [] []] := by
  have hdeeds : (tardy.carryOut [.send oneByte, .send oneTooMany]).toOption.map (·.1) =
      some [.sent oneByte (wireBytes oneByte) [⟨[sync], [sync], some 1⟩,
          ⟨[0x21, 1, 5], [0x21, 1, 5], some 3⟩, ⟨[0xE0, 0x59], [0xE0, 0x59], none⟩],
        .sent oneTooMany [] []] := by
    decide +kernel
  cases hrun : tardy.carryOut [.send oneByte, .send oneTooMany] with
  | error f =>
    rw [hrun] at hdeeds
    cases hdeeds
  | ok r =>
    rw [hrun] at hdeeds
    exact ⟨r.1, r.2, rfl, Option.some.inj hdeeds⟩

end Bench
end StarNet
