import StarNet.Bench.Uart
import StarNet.Proofs.Serial.RoundTrip

/-!
How a receiver finds its way back from garbage. Whatever it has come to, there is a number of bytes
after which it has been waiting for a frame again, whichever they are; no receiver asks for more
than the longest frame has behind its sync byte. A gap of so many bytes without a sync byte is
enough for the next frame to be heard.
-/
namespace StarNet
namespace Serial

namespace Receiver

variable {r : Receiver} {b : UInt8} {bytes : List UInt8}

/-- The length taken is one that a payload may have, and while payload comes in some of it is
missing. -/
structure Bounded (r : Receiver) : Prop where
  length_le : r.packet.length.toNat ≤ maxData
  fill_lt : r.stage = .data → r.fill < r.packet.length.toNat

theorem Bounded.of_ne_data (hle : r.packet.length.toNat ≤ maxData) (hstage : r.stage ≠ .data) :
    r.Bounded :=
  ⟨hle, fun hdata => absurd hdata hstage⟩

theorem bounded_new : Bounded {} := .of_ne_data (Nat.zero_le maxData) (by simp)

theorem Bounded.reset (h : r.Bounded) : r.reset.Bounded :=
  .of_ne_data h.length_le (by simp [Receiver.reset])

/-- How many bytes it takes at most until the receiver waits for a frame. -/
def demand (r : Receiver) : Nat :=
  match r.stage with
  | .sync => 0
  | .header => maxData + 4
  | .length => maxData + 3
  | .data => r.packet.length.toNat - r.fill + 2
  | .checksumLow => 2
  | .checksumHigh => 1

theorem Bounded.demand_le (h : r.Bounded) : r.demand ≤ maxData + 4 := by
  have := h.length_le
  unfold demand
  split <;> omega

theorem Bounded.feedLength (h : r.Bounded) :
    (r.feedLength b).Bounded ∧ (r.feedLength b).demand ≤ maxData + 2 := by
  rw [Receiver.feedLength, Packet.setLength]
  by_cases hlong : b.toNat > maxData
  · rw [if_pos hlong]
    exact ⟨h.reset, Nat.zero_le _⟩
  · rw [if_neg hlong]
    have hle := Nat.not_lt.1 hlong
    by_cases hzero : b = 0
    · simp only [hzero, if_true]
      exact ⟨.of_ne_data (Nat.zero_le maxData) (by simp), Nat.le_add_left ..⟩
    · simp only [hzero, if_false]
      refine ⟨⟨hle, fun _ => Nat.pos_of_ne_zero fun h => hzero (UInt8.toNat_inj.1 h)⟩, ?_⟩
      exact Nat.add_le_add_right hle 2

theorem Bounded.feedData (h : r.Bounded) (hstage : r.stage = .data) :
    (r.feedData b).Bounded ∧ (r.feedData b).demand + 1 = r.demand := by
  have hlt := h.fill_lt hstage
  rw [demand.eq_def r, hstage]
  by_cases hlast : r.packet.length.toNat ≤ r.fill + 1
  · rw [Receiver.feedData, if_pos hlast]
    exact ⟨.of_ne_data h.length_le (by simp), by simp only [demand]; omega⟩
  · rw [Receiver.feedData, if_neg hlast]
    exact ⟨⟨h.length_le, fun _ => Nat.not_le.1 hlast⟩, by simp only [demand]; omega⟩

/-- Every byte that a busy receiver takes brings it closer to waiting. -/
theorem Bounded.feed (h : r.Bounded) (b : UInt8) :
    (r.feed b).1.Bounded ∧ (r.stage ≠ .sync → (r.feed b).1.demand < r.demand) := by
  rw [Receiver.feed]
  cases hstage : r.stage with
  | sync =>
    refine ⟨?_, fun hbusy => absurd rfl hbusy⟩
    simp only [feedSync]
    split
    · exact .of_ne_data h.length_le (by simp)
    · exact h
  | header =>
    rw [demand.eq_def r, hstage]
    exact ⟨.of_ne_data h.length_le (by simp [feedHeader]), fun _ => Nat.lt_succ_self _⟩
  | length =>
    rw [demand.eq_def r, hstage]
    obtain ⟨hbounded, hdemand⟩ := @Bounded.feedLength r b h
    exact ⟨hbounded, fun _ => Nat.lt_succ_of_le hdemand⟩
  | data =>
    obtain ⟨hbounded, hdemand⟩ := @Bounded.feedData r b h hstage
    exact ⟨hbounded, fun _ => Nat.lt_of_succ_le (Nat.le_of_eq hdemand)⟩
  | checksumLow =>
    rw [demand.eq_def r, hstage]
    exact ⟨.of_ne_data h.length_le (by simp [feedChecksumLow]), fun _ => Nat.lt_succ_self _⟩
  | checksumHigh =>
    rw [demand.eq_def r, hstage]
    exact ⟨h.reset, fun _ => Nat.lt_succ_self _⟩

theorem Bounded.hearAll (h : r.Bounded) (events : List LineEvent) :
    (r.hearAll events).2.Bounded := by
  induction events generalizing r with
  | nil => exact h
  | cons e events ih =>
    cases e with
    | byte b => exact ih (h.feed b).1
    | notReady | readsNothing => exact ih h
    | readFails | readyFails => exact ih h.reset

theorem Bounded.exists_idle (h : r.Bounded) (enough : r.demand ≤ bytes.length) :
    ∃ front rest, bytes = front ++ rest ∧ (r.feedAll front).2.stage = .sync := by
  induction bytes generalizing r with
  | nil =>
    refine ⟨[], [], rfl, ?_⟩
    rw [List.length_nil, demand] at enough
    show r.stage = .sync
    split at enough
    · assumption
    all_goals omega
  | cons b bytes ih =>
    by_cases hidle : r.stage = .sync
    · exact ⟨[], b :: bytes, rfl, hidle⟩
    · obtain ⟨hbounded, hless⟩ := h.feed b
      have hdemand := hless hidle
      rw [List.length_cons] at enough
      obtain ⟨front, rest, rfl, hfront⟩ := ih hbounded (by omega)
      exact ⟨b :: front, rest, rfl, hfront⟩

theorem Bounded.idle_of_gap (h : r.Bounded) (gap : sync ∉ bytes)
    (long : maxData + 4 ≤ bytes.length) : (r.feedAll bytes).2.stage = .sync := by
  obtain ⟨front, rest, rfl, hfront⟩ := h.exists_idle (Nat.le_trans h.demand_le long)
  rw [feedAll_append, feedAll_noise hfront fun hrest => gap (List.mem_append_right front hrest)]
  exact hfront

end Receiver

/-- Let the receiver of a transceiver be in whatever state calls to receive have brought it to,
amid any bytes and failures. If at least as many bytes as the longest frame has behind its sync
byte then come in, no sync byte among them, and behind them the bytes of a frame, over a line that
does not fail meanwhile, then the last thing the calls tell is this frame, and the receiver waits.
And without a gap, so many bytes take a receiver in the middle of a frame back to waiting at some
point, whichever they are. -/
theorem resynchronises_after_gap {T : Type} {line : T} {before : List (List LineEvent)}
    {t : Transceiver T}
    (reached : (({ line } : Transceiver T).listen before).2.receiver = t.receiver) :
    (∀ (schedule : List (List LineEvent)) (gap : List UInt8) (f : Transmission) (n : Nat),
      (∀ e ∈ t.incoming ++ schedule.flatten, ¬ e.Fails) →
      bytesOf (t.incoming ++ schedule.flatten) = gap ++ wireBytes f →
      maxData + 4 ≤ gap.length → sync ∉ gap → f.payload.length ≤ maxData →
      (t.incoming ++ schedule.flatten).length ≤ n →
      ∃ (told : List Reception) (p : Packet) (t' : Transceiver T),
        t.listen (schedule ++ List.replicate n []) = (told ++ [.frame p], t') ∧
        p.header = f.header ∧ p.payload = f.payload ∧ t'.receiver.stage = .sync ∧
        t'.incoming = []) ∧
    (t.receiver.stage ≠ .sync → ∀ bytes : List UInt8, bytes.length = maxData + 4 →
      ∃ front rest, bytes = front ++ rest ∧ front ≠ [] ∧
        (t.receiver.feedAll front).2.stage = .sync) := by
  have hbounded : t.receiver.Bounded := by
    obtain ⟨taken, -, hheard⟩ := ({ line } : Transceiver T).listen_takes before
    have hreached := Receiver.bounded_new.hearAll taken
    rw [hheard, reached] at hreached
    exact hreached
  constructor
  · intro schedule gap f n sound hbytes long hgap fit enough
    obtain ⟨hlisten, hdone⟩ := Transceiver.listen_all sound enough
    obtain ⟨p, r, hheader, hpayload, hr, hfed⟩ :=
      Receiver.feedAll_wireBytes (hbounded.idle_of_gap hgap long) fit
    rw [hbytes, Receiver.feedAll_append, hfed] at hlisten
    obtain ⟨htold, hreceiver⟩ := Prod.mk.inj hlisten
    exact ⟨_, p, _, Prod.ext htold.symm rfl, hheader, hpayload, hreceiver ▸ hr, hdone⟩
  · intro hbusy bytes hlength
    obtain ⟨front, rest, hsplit, hidle⟩ :=
      hbounded.exists_idle (Nat.le_trans hbounded.demand_le (Nat.le_of_eq hlength.symm))
    refine ⟨front, rest, hsplit, ?_, hidle⟩
    rintro rfl
    exact hbusy hidle

end Serial

namespace Bench

open Serial

def midFrame : Transceiver Uart where
  receiver := { stage := .data, packet := ⟨⟨3⟩, 66, Buffer.zero.write 0 [1]⟩, fill := 1 }
  line := {}

def gapAndFrame : List LineEvent :=
  (List.replicate 70 0 ++ [sync, 0x21, 1, sync, 0xE0, 0x21]).map .byte

theorem frame_behind_gap_heard :
    (∃ (told : List Reception) (p : Packet) (t : Transceiver Uart),
      midFrame.listen ([[.notReady], gapAndFrame] ++ List.replicate 80 []) =
        (told ++ [.frame p], t) ∧
      p.header = ⟨0x21⟩ ∧ p.payload = [sync] ∧ t.receiver.stage = .sync ∧ t.incoming = []) ∧
    ∃ front rest, List.replicate 70 sync = front ++ rest ∧ front ≠ [] ∧
      (midFrame.receiver.feedAll front).2.stage = .sync := by
  have hreached : (({ line := {} } : Transceiver Uart).listen
      [[.byte sync, .byte 3, .notReady], [.byte 66, .byte 1]]).2.receiver =
        midFrame.receiver := by decide +kernel
  obtain ⟨hheard, hwaits⟩ := resynchronises_after_gap hreached
  refine ⟨?_, hwaits (by decide) _ (by decide)⟩
  exact hheard [[.notReady], gapAndFrame] (List.replicate 70 0) ⟨.data, ⟨0x21⟩, [sync]⟩ 80
    (by decide +kernel) (by decide +kernel) (by decide) (by decide) (by decide)
    (by decide +kernel)

end Bench
end StarNet
