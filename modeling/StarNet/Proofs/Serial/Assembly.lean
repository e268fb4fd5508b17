import Mathlib.Data.List.DropRight
import StarNet.Proofs.Serial.Findings
import StarNet.Proofs.Serial.Resync

/-!
What a receiver has of the frame that is coming in. At every moment it is what the line has brought
of this frame since it last failed, whatever frames broken off or refused have left behind in the
buffer. So a payload byte always has a place in the buffer, and a caller's packet is not touched
before a frame is whole.
-/
namespace StarNet
namespace Serial

variable {bytes noise more rest : List UInt8} {header length b : UInt8} {finding? : Option Finding}

theorem behindSync_sync (bytes : List UInt8) : behindSync (sync :: bytes) = bytes := by
  simp [behindSync]

theorem dropWhile_noise (hnoise : sync ∉ noise) (bytes : List UInt8) :
    (noise ++ bytes).dropWhile (· != sync) = bytes.dropWhile (· != sync) := by
  refine List.dropWhile_append_of_pos fun b hb => ?_
  exact bne_iff_ne.2 fun heq => hnoise (heq ▸ hb)

theorem firstFinding?_noise (hnoise : sync ∉ noise) (bytes : List UInt8) :
    firstFinding? (noise ++ bytes) = firstFinding? bytes := by
  rw [firstFinding?, behindSync, dropWhile_noise hnoise]
  rfl

theorem firstFinding?_cut (hfit : length.toNat ≤ maxData) (hcut : rest.length < length.toNat + 2) :
    firstFinding? (sync :: header :: length :: rest) = none := by
  simp only [firstFinding?, behindSync_sync, if_neg (Nat.not_lt.2 hfit)]
  split
  next low high behind hdrop =>
    have hlength := congrArg List.length hdrop
    simp only [List.length_drop, List.length_cons] at hlength
    omega
  · rfl

theorem Found.firstFinding?_eq {found : List UInt8} (h : Found finding? found)
    (rest : List UInt8) : firstFinding? (found ++ rest) = some (finding?, rest) := by
  cases h with
  | overlong hlong =>
    simp only [List.cons_append, List.nil_append, firstFinding?, behindSync_sync, if_pos hlong]
  | @frame header length low high payload hlength hfit =>
    have hbehind : (payload ++ [low, high]) ++ rest = payload ++ low :: high :: rest :=
      List.append_assoc ..
    simp only [List.cons_append, hbehind, firstFinding?, behindSync_sync,
      if_neg (Nat.not_lt.2 (hlength ▸ hfit))]
    rw [hlength, List.drop_left, List.take_left]

/-- What is found is up to the bytes in front of the rest, whatever the rest is. -/
theorem firstFinding?_split (h : firstFinding? bytes = some (finding?, rest)) : ∃ front,
    bytes = front ++ rest ∧ ∀ more, firstFinding? (front ++ more) = some (finding?, more) := by
  obtain ⟨noise, found, hnoise, hfound, hbytes⟩ := exists_found h
  refine ⟨noise ++ found, hbytes.trans (List.append_assoc ..).symm, fun more => ?_⟩
  rw [List.append_assoc, firstFinding?_noise hnoise]
  exact hfound.firstFinding?_eq more

/-- The bytes of a frame that has begun and of which some are still to come, from its sync byte
on. -/
def unfinished (bytes : List UInt8) : List UInt8 :=
  match _hfirst : firstFinding? bytes with
  | some (_, rest) => unfinished rest
  | none => bytes.dropWhile (· != sync)
termination_by bytes.length
decreasing_by exact length_lt_of_firstFinding? _hfirst

theorem unfinished_of_some (h : firstFinding? bytes = some (finding?, rest)) :
    unfinished bytes = unfinished rest := by
  rw [unfinished]
  split
  next hsome =>
    rw [h] at hsome
    cases hsome
    rfl
  next hnone => rw [h] at hnone; cases hnone

theorem unfinished_of_none (h : firstFinding? bytes = none) :
    unfinished bytes = bytes.dropWhile (· != sync) := by
  rw [unfinished]
  split
  next hsome => rw [h] at hsome; cases hsome
  next => rfl

theorem unfinished_noise (hnoise : sync ∉ noise) (bytes : List UInt8) :
    unfinished (noise ++ bytes) = unfinished bytes := by
  have hsame := firstFinding?_noise hnoise bytes
  cases hfirst : firstFinding? bytes with
  | none =>
    rw [unfinished_of_none hfirst, unfinished_of_none (hsame.trans hfirst),
      dropWhile_noise hnoise]
  | some found => rw [unfinished_of_some hfirst, unfinished_of_some (hsame.trans hfirst)]

theorem unfinished_append (bytes more : List UInt8) :
    unfinished (bytes ++ more) = unfinished (unfinished bytes ++ more) := by
  induction hlen : bytes.length using Nat.strongRecOn generalizing bytes with
  | ind n ih =>
    cases hfirst : firstFinding? bytes with
    | some found =>
      obtain ⟨finding?, rest⟩ := found
      obtain ⟨front, hbytes, hfound⟩ := firstFinding?_split hfirst
      have hfirst' := hfound (rest ++ more)
      rw [← List.append_assoc, ← hbytes] at hfirst'
      rw [unfinished_of_some hfirst', unfinished_of_some hfirst]
      exact ih rest.length (hlen ▸ length_lt_of_firstFinding? hfirst) rest rfl
    | none =>
      have hnoise : sync ∉ bytes.takeWhile (· != sync) := fun hmem =>
        absurd (List.all_eq_true.1 List.all_takeWhile sync hmem) (by simp)
      rw [unfinished_of_none hfirst,
        ← unfinished_noise hnoise (bytes.dropWhile (· != sync) ++ more), ← List.append_assoc,
        List.takeWhile_append_dropWhile]

theorem unfinished_cut (hfit : length.toNat ≤ maxData) (hcut : rest.length < length.toNat + 2) :
    unfinished (sync :: header :: length :: rest) = sync :: header :: length :: rest := by
  rw [unfinished_of_none (firstFinding?_cut hfit hcut)]
  rfl

theorem unfinished_short (hshort : rest.length < 2) : unfinished (sync :: rest) = sync :: rest := by
  have hnone : firstFinding? (sync :: rest) = none := by
    rw [firstFinding?, behindSync_sync]
    rcases rest with _ | ⟨header, _ | ⟨length, rest⟩⟩
    · rfl
    · rfl
    · simp only [List.length_cons] at hshort
      omega
  rw [unfinished_of_none hnone]
  rfl

theorem unfinished_nil : unfinished [] = [] := unfinished_of_none rfl

theorem Found.unfinished_eq_nil {found : List UInt8} (h : Found finding? found) :
    unfinished found = [] := by
  have hfirst := h.firstFinding?_eq []
  rw [List.append_nil] at hfirst
  rw [unfinished_of_some hfirst, unfinished_nil]

theorem unfinished_suffix (bytes : List UInt8) : unfinished bytes <:+ bytes := by
  induction hlen : bytes.length using Nat.strongRecOn generalizing bytes with
  | ind n ih =>
    cases hfirst : firstFinding? bytes with
    | none =>
      rw [unfinished_of_none hfirst]
      exact List.dropWhile_suffix _
    | some found =>
      obtain ⟨finding?, rest⟩ := found
      obtain ⟨front, hbytes, -⟩ := firstFinding?_split hfirst
      have hrest := ih rest.length (hlen ▸ length_lt_of_firstFinding? hfirst) rest rfl
      rw [unfinished_of_some hfirst]
      exact hrest.trans ⟨front, hbytes.symm⟩

namespace Receiver

variable {r : Receiver}

/-- The bytes of the frame that is coming in, as the receiver has them: the sync byte, header and
length, so much of its buffer as is filled, and the first byte of the checksum. -/
def held (r : Receiver) : List UInt8 :=
  match r.stage with
  | .sync => []
  | .header => [sync]
  | .length => [sync, r.packet.header.byte]
  | .data =>
    sync :: r.packet.header.byte :: r.packet.length :: r.packet.buffer.bytes.take r.fill
  | .checksumLow => sync :: r.packet.frame
  | .checksumHigh => sync :: (r.packet.frame ++ [r.checksumLow])

theorem Bounded.fill_lt_buffer (h : r.Bounded) (hstage : r.stage = .data) :
    r.fill < r.packet.buffer.bytes.length := by
  rw [Buffer.length_bytes]
  exact Nat.lt_of_lt_of_le (h.fill_lt hstage) h.length_le

theorem Bounded.length_payload (h : r.Bounded) :
    r.packet.payload.length = r.packet.length.toNat := by
  rw [Packet.payload, List.length_take, Buffer.length_bytes]
  exact Nat.min_eq_left h.length_le

theorem held_of_idle (idle : r.stage = .sync) : r.held = [] := by
  rw [held, idle]

theorem held_feedSync (hstage : r.stage = .sync) (b : UInt8) :
    (r.feedSync b).held = unfinished (r.held ++ [b]) := by
  rw [held_of_idle hstage, List.nil_append, feedSync]
  by_cases hb : b = sync
  · rw [if_pos hb, hb]
    exact (unfinished_short (by simp)).symm
  · have hnoise : sync ∉ [b] := by simpa using Ne.symm hb
    have hnone := unfinished_noise hnoise []
    rw [if_neg hb, held_of_idle hstage, ← List.append_nil [b], hnone, unfinished_nil]

theorem held_feedHeader (hstage : r.stage = .header) (b : UInt8) :
    (r.feedHeader b).held = unfinished (r.held ++ [b]) := by
  have hheld : r.held = [sync] := by rw [held, hstage]
  rw [hheld]
  exact (unfinished_short (by simp)).symm

theorem held_feedLength (hstage : r.stage = .length) (b : UInt8) :
    (r.feedLength b).held = unfinished (r.held ++ [b]) := by
  have hheld : r.held ++ [b] = [sync, r.packet.header.byte, b] := by rw [held, hstage]; rfl
  rw [hheld, feedLength, Packet.setLength]
  by_cases hlong : b.toNat > maxData
  · rw [if_pos hlong, (Found.overlong hlong).unfinished_eq_nil]
    rfl
  · rw [if_neg hlong, unfinished_cut (Nat.not_lt.1 hlong) (by simp)]
    by_cases hzero : b = 0
    · rw [hzero]
      rfl
    · simp only [if_neg hzero]
      rfl

theorem held_feedData (h : r.Bounded) (hstage : r.stage = .data) (b : UInt8) :
    (r.feedData b).held = unfinished (r.held ++ [b]) := by
  have hlt := h.fill_lt hstage
  have hfill := h.fill_lt_buffer hstage
  have hheld : r.held ++ [b] = sync :: r.packet.header.byte :: r.packet.length ::
      (r.packet.buffer.bytes.take r.fill ++ [b]) := by
    rw [held, hstage]
    rfl
  have hset : (r.packet.buffer.bytes.set r.fill b).take (r.fill + 1) =
      r.packet.buffer.bytes.take r.fill ++ [b] := by
    rw [List.take_succ_eq_append_getElem (by rwa [List.length_set]), List.getElem_set_self,
      List.take_set_of_le (Nat.le_refl _)]
  rw [hheld, unfinished_cut h.length_le]
  · rw [← hset]
    by_cases hlast : r.packet.length.toNat ≤ r.fill + 1
    · have hfull : r.fill + 1 = r.packet.length.toNat := Nat.le_antisymm hlt hlast
      rw [feedData, if_pos hlast, hfull]
      rfl
    · rw [feedData, if_neg hlast]
      rfl
  · rw [List.length_append, List.length_take_of_le (Nat.le_of_lt hfill), List.length_singleton]
    omega

theorem held_feedChecksumLow (h : r.Bounded) (hstage : r.stage = .checksumLow) (b : UInt8) :
    (r.feedChecksumLow b).held = unfinished (r.held ++ [b]) := by
  have hheld : r.held ++ [b] =
      sync :: r.packet.header.byte :: r.packet.length :: (r.packet.payload ++ [b]) := by
    rw [held, hstage]
    rfl
  rw [hheld, unfinished_cut h.length_le]
  · rfl
  · rw [List.length_append, h.length_payload, List.length_singleton]
    omega

theorem held_feedChecksumHigh (h : r.Bounded) (hstage : r.stage = .checksumHigh) (b : UInt8) :
    r.reset.held = unfinished (r.held ++ [b]) := by
  have hheld : r.held ++ [b] = sync :: r.packet.header.byte :: r.packet.length ::
      (r.packet.payload ++ [r.checksumLow, b]) := by
    rw [held, hstage]
    simp [Packet.frame]
  have hfound : Found (some (judge r.packet.header.byte r.packet.length r.packet.payload
      r.checksumLow b)) (r.held ++ [b]) := by
    rw [hheld]
    exact .frame h.length_payload.symm (h.length_payload ▸ h.length_le)
  rw [hfound.unfinished_eq_nil]
  rfl

theorem Bounded.held_feed (h : r.Bounded) (b : UInt8) :
    (r.feed b).1.held = unfinished (r.held ++ [b]) := by
  rw [Receiver.feed]
  cases hstage : r.stage with
  | sync => exact held_feedSync hstage b
  | header => exact held_feedHeader hstage b
  | length => exact held_feedLength hstage b
  | data => exact held_feedData h hstage b
  | checksumLow => exact held_feedChecksumLow h hstage b
  | checksumHigh => exact held_feedChecksumHigh h hstage b

/-- The receiver is in order once these bytes have come since the line last failed. The length it
has taken is one that a payload may have, some of the payload is missing while it comes in, and what
it holds of a frame is what has come of it. -/
structure Keeps (r : Receiver) (bytes : List UInt8) : Prop where
  bounded : r.Bounded
  held_eq : r.held = unfinished bytes

theorem keeps_new : Keeps {} [] := ⟨bounded_new, unfinished_nil.symm⟩

theorem Keeps.feed (h : r.Keeps bytes) (b : UInt8) : (r.feed b).1.Keeps (bytes ++ [b]) := by
  refine ⟨(h.bounded.feed b).1, ?_⟩
  rw [h.bounded.held_feed, h.held_eq, ← unfinished_append]

theorem Keeps.reset (h : r.Keeps bytes) : r.reset.Keeps [] :=
  ⟨h.bounded.reset, unfinished_nil.symm⟩

end Receiver

/-- The bytes that have come since the line last failed. -/
def sinceFailure (events : List LineEvent) : List UInt8 :=
  bytesOf (events.rtakeWhile fun e => decide ¬ e.Fails)

theorem sinceFailure_failure {e : LineEvent} (he : e.Fails) (events : List LineEvent) :
    sinceFailure (events ++ [e]) = [] := by
  rw [sinceFailure, List.rtakeWhile_concat_neg]
  · rfl
  · simpa using he

theorem sinceFailure_concat {e : LineEvent} (he : ¬ e.Fails) (events : List LineEvent) :
    sinceFailure (events ++ [e]) = sinceFailure events ++ e.byte?.toList := by
  rw [sinceFailure, List.rtakeWhile_concat_pos]
  · rw [bytesOf, List.filterMap_append]
    cases e <;> rfl
  · simpa using he

theorem Receiver.Keeps.hearAll {r : Receiver} {heard : List LineEvent}
    (h : r.Keeps (sinceFailure heard)) (events : List LineEvent) :
    (r.hearAll events).2.Keeps (sinceFailure (heard ++ events)) := by
  induction events generalizing r heard with
  | nil =>
    rw [List.append_nil]
    exact h
  | cons e events ih =>
    rw [List.append_cons]
    cases e with
    | byte b =>
      refine ih ?_
      rw [sinceFailure_concat (by simp [LineEvent.Fails])]
      exact h.feed b
    | notReady | readsNothing =>
      refine ih ?_
      rw [sinceFailure_concat (by decide)]
      exact (List.append_nil _).symm ▸ h
    | readFails | readyFails =>
      refine ih ?_
      rw [sinceFailure_failure (by decide)]
      exact h.reset

namespace Receiver

/-- Takes one byte in place: a payload byte goes to an index of the buffer, which has to be there,
and a whole frame into the caller's packet. -/
def feedInPlace (r : Receiver) (mine : Packet) (b : UInt8) :
    Option (Receiver × Packet × Option Reception) :=
  match r.stage with
  | .sync => some (r.feedSync b, mine, none)
  | .header => some (r.feedHeader b, mine, none)
  | .length => some (r.feedLength b, mine, none)
  | .data =>
    if r.fill < r.packet.buffer.bytes.length then some (r.feedData b, mine, none) else none
  | .checksumLow => some (r.feedChecksumLow b, mine, none)
  | .checksumHigh => some (r.reset, (r.verdict b).into mine, some (r.verdict b))

/-- A call to receive that is made in place. -/
def receiveInPlace (r : Receiver) (mine : Packet) :
    List LineEvent → Option (Reception × Receiver × Packet × List LineEvent)
  | [] => some (.nothing, r, mine, [])
  | .byte b :: rest =>
    match r.feedInPlace mine b with
    | none => none
    | some (r, mine, some reception) => some (reception, r, mine, rest)
    | some (r, mine, none) => receiveInPlace r mine rest
  | .notReady :: rest | .readsNothing :: rest => some (.nothing, r, mine, rest)
  | .readFails :: rest | .readyFails :: rest => some (.nothing, r.reset, mine, rest)

variable {r : Receiver}

/-- The index is there, and nothing but the last byte of a frame gets at the caller's packet. -/
theorem Bounded.feedInPlace_eq (h : r.Bounded) (mine : Packet) (b : UInt8) :
    r.feedInPlace mine b =
      some ((r.feed b).1, ((r.feed b).2.getD .nothing).into mine, (r.feed b).2) := by
  rw [feedInPlace, Receiver.feed]
  cases hstage : r.stage with
  | data => exact if_pos (h.fill_lt_buffer hstage)
  | _ => rfl

theorem Bounded.receiveInPlace_eq (h : r.Bounded) (mine : Packet) (events : List LineEvent) :
    r.receiveInPlace mine events = some ((receiveFrom r events).1, (receiveFrom r events).2.1,
      (receiveFrom r events).1.into mine, (receiveFrom r events).2.2) := by
  induction events generalizing r with
  | nil => rfl
  | cons e events ih =>
    cases e with
    | byte b =>
      have hnext := (h.feed b).1
      rw [receiveInPlace, h.feedInPlace_eq, receiveFrom]
      cases hfeed : r.feed b with
      | mk r' reception? =>
        rw [hfeed] at hnext
        cases reception? with
        | none => exact ih hnext
        | some reception => rfl
    | _ => rfl

end Receiver

namespace Transceiver

theorem receiver_receive {T : Type} {t : Transceiver T} {taken : List LineEvent}
    (h : t.incoming = taken ++ t.receive.2.incoming) :
    t.receive.2.receiver = (t.receiver.hearAll taken).2 := by
  obtain ⟨taken', htaken, -, hheard⟩ := receiveFrom_takes t.receiver t.incoming
  obtain rfl : taken' = taken := List.append_cancel_right (htaken.symm.trans h)
  rw [hheard]
  rfl

variable {T : Type} [Transmitter T]

theorem receiver_send (t : Transceiver T) (header : Header) (payload : List UInt8) :
    (t.send header payload).2.receiver = t.receiver := by
  rw [send]
  split
  · rfl
  · split <;> rfl

/-- What a new transceiver may become, and the events that it has heard by then: more comes in, a
call takes some of it off the line, or something is sent. -/
inductive Reached : Transceiver T → List LineEvent → Prop where
  | new (line : T) : Reached { line } []
  | arrive {t : Transceiver T} {heard : List LineEvent} (events : List LineEvent) :
      Reached t heard → Reached { t with incoming := t.incoming ++ events } heard
  | receive {t : Transceiver T} {heard : List LineEvent} (taken : List LineEvent) :
      Reached t heard → t.incoming = taken ++ t.receive.2.incoming →
      Reached t.receive.2 (heard ++ taken)
  | canSend {t : Transceiver T} {heard : List LineEvent} :
      Reached t heard → Reached t.canSend.2 heard
  | send {t : Transceiver T} {heard : List LineEvent} (header : Header) (payload : List UInt8) :
      Reached t heard → Reached (t.send header payload).2 heard

variable {t : Transceiver T} {heard : List LineEvent}

theorem Reached.keeps (h : Reached t heard) : t.receiver.Keeps (sinceFailure heard) := by
  induction h with
  | new line => exact Receiver.keeps_new
  | arrive events _ ih => exact ih
  | receive taken _ htaken ih =>
    rw [receiver_receive htaken]
    exact ih.hearAll taken
  | canSend _ ih => exact ih
  | send header payload _ ih =>
    rw [receiver_send]
    exact ih

/-- Whatever bytes and failures have come in, and however calls, transmissions and questions to the
line have followed each other, the receiver has of the frame that is coming in what has come of it.
The next call takes some of the events off the line, and the receiver is in order after each of
them. Made in place, with every index checked, the call ends as it does otherwise, and the caller's
packet is as it was unless a frame is told, which it then holds. -/
theorem Reached.receives_in_place (h : Reached t heard) :
    t.receiver.Keeps (sinceFailure heard) ∧ t.receiver.held <:+ sinceFailure heard ∧
    (∃ taken, t.incoming = taken ++ t.receive.2.incoming ∧ Reached t.receive.2 (heard ++ taken) ∧
      t.receive.2.receiver = (t.receiver.hearAll taken).2 ∧
      ∀ front, front <+: taken →
        (t.receiver.hearAll front).2.Keeps (sinceFailure (heard ++ front))) ∧
    ∀ mine, ∃ mine', t.receiver.receiveInPlace mine t.incoming =
        some (t.receive.1, t.receive.2.receiver, mine', t.receive.2.incoming) ∧
      (t.receive.1 = .frame mine' ∨ mine' = mine ∧ ∀ p, t.receive.1 ≠ .frame p) := by
  refine ⟨h.keeps, h.keeps.held_eq ▸ unfinished_suffix _, ?_, fun mine => ?_⟩
  · obtain ⟨taken, htaken, -⟩ := receiveFrom_takes t.receiver t.incoming
    exact ⟨taken, htaken, h.receive taken htaken, receiver_receive htaken,
      fun front _ => h.keeps.hearAll front⟩
  · refine ⟨_, h.keeps.bounded.receiveInPlace_eq mine t.incoming, ?_⟩
    cases hreception : (receiveFrom t.receiver t.incoming).1 with
    | frame p => exact .inl hreception
    | nothing | badChecksum =>
      refine .inr ⟨rfl, fun p hp => ?_⟩
      cases hreception.symm.trans hp

end Transceiver

end Serial

namespace Bench

open Serial

def brokenOff : List LineEvent :=
  [.byte sync, .byte 0x21, .byte 67, .byte sync, .byte 0x22, .byte 66, .byte 1, .byte 2, .readFails,
    .byte sync, .byte 0x23, .byte 2, .byte 7, .notReady]

def halfPayload : Transceiver Uart where
  receiver := { stage := .data, packet := ⟨⟨0x23⟩, 2, Buffer.zero.write 0 [7, 2]⟩, fill := 1 }
  incoming := [.byte 8, .byte 0xA9, .byte 0x96, .byte 9]
  line := {}

theorem reached_halfPayload : Transceiver.Reached halfPayload brokenOff := by
  have harrived := (Transceiver.Reached.new ({} : Uart)).arrive brokenOff
  have hfirst := harrived.receive (brokenOff.take 9) (by decide +kernel)
  have hsecond := hfirst.receive (brokenOff.drop 9) (by decide +kernel)
  exact hsecond.arrive [.byte 8, .byte 0xA9, .byte 0x96, .byte 9]

theorem halfPayload_receives_in_place :
    halfPayload.receiver.Keeps [sync, 0x23, 2, 7] ∧
    (∃ taken, halfPayload.incoming = taken ++ [.byte 9]) ∧
    ∃ mine : Packet, mine.header = ⟨0x23⟩ ∧ mine.payload = [7, 8] ∧
      halfPayload.receiver.receiveInPlace {} halfPayload.incoming =
        some (.frame mine, halfPayload.receive.2.receiver, mine, [.byte 9]) := by
  have hsince : sinceFailure brokenOff = [sync, 0x23, 2, 7] := by decide +kernel
  have hframe : halfPayload.receive.1 = .frame ⟨⟨0x23⟩, 2, Buffer.zero.write 0 [7, 8]⟩ := by
    decide +kernel
  have hrest : halfPayload.receive.2.incoming = [.byte 9] := by decide +kernel
  obtain ⟨hkeeps, -, ⟨taken, htaken, -⟩, hcall⟩ := reached_halfPayload.receives_in_place
  rw [hsince] at hkeeps
  rw [hrest] at htaken
  obtain ⟨mine, hcall, hmine | ⟨-, hnone⟩⟩ := hcall {}
  · cases hframe.symm.trans hmine
    rw [hframe, hrest] at hcall
    exact ⟨hkeeps, ⟨taken, htaken⟩, _, rfl, by decide +kernel, hcall⟩
  · exact absurd hframe (hnone _)

end Bench
end StarNet
