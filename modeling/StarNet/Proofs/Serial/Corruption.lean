import StarNet.Proofs.BitErrors
import StarNet.Proofs.Serial.RoundTrip

/-!
Frames of which some bits were flipped on the line. As long as the sync byte and the length come
through, a receiver takes as many bytes for the frame as were sent, and what it takes behind the
sync byte has checksum zero only if nothing was flipped that a checksum finds. So the frame is
refused, once, and the next one is heard.
-/
namespace StarNet
namespace Serial

variable {f : Transmission} {struck : List UInt8}

theorem checksum_wireBytes_tail (f : Transmission) : checksum (wireBytes f).tail = 0 := by
  have hframe : (wireBytes f).tail =
      (f.header.byte :: f.payload.length.toUInt8 :: f.payload) ++
        (checksum (f.header.byte :: f.payload.length.toUInt8 :: f.payload)).toBytes := rfl
  rw [hframe]
  exact checksum_append_pair_eq_zero.2 rfl

/-- Bytes that are as many as those of a frame and have its length byte are taken for a frame. -/
theorem exists_parts (size : struck.length = (wireBytes f).tail.length)
    (spared : struck[1]? = some f.payload.length.toUInt8) :
    ∃ (header : UInt8) (payload : List UInt8) (sum : Checksum),
      payload.length = f.payload.length ∧
      struck = header :: f.payload.length.toUInt8 :: (payload ++ sum.toBytes) := by
  have hsize : struck.length = f.payload.length + 4 := by
    rw [size]
    simp [wireBytes, Checksum.toBytes]
  obtain ⟨header, rest, rfl⟩ := List.exists_cons_of_length_eq_add_one hsize
  obtain ⟨length, rest, rfl⟩ := List.exists_cons_of_length_eq_add_one (Nat.succ.inj hsize)
  obtain rfl : length = f.payload.length.toUInt8 := by simpa using spared
  have hrest : rest.length = f.payload.length + 2 := by simpa using hsize
  obtain ⟨sum, hsum⟩ := @Checksum.exists_toBytes (rest.drop f.payload.length)
    (by rw [List.length_drop]; omega)
  refine ⟨header, rest.take f.payload.length, sum, ?_, ?_⟩
  · rw [List.length_take]
    omega
  · rw [hsum, List.take_append_drop]

theorem Receiver.feedAll_damaged {r : Receiver} (waiting : r.stage = .sync)
    (fit : f.payload.length ≤ maxData) (size : struck.length = (wireBytes f).tail.length)
    (spared : struck[1]? = some f.payload.length.toUInt8)
    (damaged : Detectable (flips (wireBytes f).tail struck)) :
    ∃ r', r'.stage = .sync ∧ r.feedAll (sync :: struck) = ([.badChecksum], r') := by
  have hbad := damaged.checksum_ne_zero size.symm (checksum_wireBytes_tail f)
  obtain ⟨header, payload, sum, hlength, rfl⟩ := exists_parts size spared
  have hwrong : checksum (header :: f.payload.length.toUInt8 :: payload) ≠ sum := by
    rintro rfl
    have hfits := @checksum_append_pair_eq_zero (header :: f.payload.length.toUInt8 :: payload)
    exact hbad (hfits.2 rfl)
  obtain ⟨p, r', -, -, -, hr', hfed⟩ := @feedAll_frame r sum.low sum.high payload header
    f.payload.length.toUInt8 waiting
    ((Packet.toNat_length_toUInt8 fit).trans hlength.symm) (hlength ▸ fit)
  rw [Checksum.ofBytes_low_high, if_neg hwrong] at hfed
  exact ⟨r', hr', hfed⟩

/-- Let a frame come in at a transceiver that waits, with a burst of at most sixteen of its bits
flipped, or any odd number of them, but sync byte and length as they were sent. However the bytes
fall to the calls, over a line that does not fail, the calls tell one bad checksum and nothing
else, no caller's packet is touched, and the transceiver waits again. So the next frame, noise
before it or not, is heard as it was sent. -/
theorem damaged_frame_refused {R : Type} {t : Transceiver R} {calls idle : List Transceiver.Call}
    (waiting : t.receiver.stage = .sync) (fit : f.payload.length ≤ maxData)
    (size : struck.length = (wireBytes f).tail.length)
    (spared : struck[1]? = some f.payload.length.toUInt8)
    (damaged : Detectable (flips (wireBytes f).tail struck))
    (sound : ∀ e ∈ t.incoming ++ (calls.map (·.arriving)).flatten, ¬ e.Fails)
    (quiet : ∀ c ∈ idle, c.arriving = [])
    (enough : (t.incoming ++ (calls.map (·.arriving)).flatten).length ≤ idle.length) :
    (bytesOf (t.incoming ++ (calls.map (·.arriving)).flatten) = sync :: struck →
      (t.collect (calls ++ idle)).1.flatMap (·.1.told) = [.badChecksum] ∧
      (t.collect (calls ++ idle)).1.map Prod.snd = (calls ++ idle).map (·.mine) ∧
      (t.collect (calls ++ idle)).2.receiver.stage = .sync ∧
      (t.collect (calls ++ idle)).2.incoming = []) ∧
    ∀ (noise : List UInt8) (next : Transmission), sync ∉ noise → next.payload.length ≤ maxData →
      bytesOf (t.incoming ++ (calls.map (·.arriving)).flatten) =
        sync :: struck ++ (noise ++ wireBytes next) →
      ∃ p, (t.collect (calls ++ idle)).1.flatMap (·.1.told) = [.badChecksum, .frame p] ∧
        p.header = next.header ∧ p.payload = next.payload ∧
        (t.collect (calls ++ idle)).2.receiver.stage = .sync := by
  obtain ⟨hcollect, hdone⟩ := Transceiver.collect_all sound quiet enough
  obtain ⟨r', hr', hrefused⟩ := Receiver.feedAll_damaged waiting fit size spared damaged
  constructor
  · intro hbytes
    rw [hbytes, hrefused] at hcollect
    obtain ⟨htold, hreceiver⟩ := Prod.mk.inj hcollect
    refine ⟨htold.symm, Transceiver.collect_unchanged fun p hp => ?_, hreceiver ▸ hr', hdone⟩
    rw [← Transceiver.collect_listen.1, ← htold] at hp
    simp at hp
  · intro noise next hnoise hnext hbytes
    obtain ⟨p, r'', hheader, hpayload, hr'', hheard⟩ := Receiver.feedAll_wireBytes hr' hnext
    rw [hbytes, Receiver.feedAll_append, hrefused, Receiver.feedAll_append,
      Receiver.feedAll_noise hr' hnoise, hheard] at hcollect
    obtain ⟨htold, hreceiver⟩ := Prod.mk.inj hcollect
    exact ⟨p, htold.symm, hheader, hpayload, hreceiver ▸ hr''⟩

end Serial

namespace Bench

open Serial

def waitingFull : Transceiver Uart where
  receiver := { packet := ⟨⟨0x85⟩, 66, Buffer.zero.write 0 (List.replicate 66 sync)⟩, fill := 66 }
  line := {}

/-- The frame with a sync byte for its payload, behind its own sync byte, with four bits flipped:
the last one of the payload, two in the first byte of the checksum and one in the second. -/
def struckFrame : List UInt8 := [0x21, 1, 0x25, 0x61, 0x61]

def struckCalls : List Transceiver.Call :=
  [⟨[.byte sync, .byte 0x21, .notReady, .byte 1], { length := 9 }⟩, ⟨[.byte 0x25], {}⟩,
    ⟨[.readsNothing, .byte 0x61, .byte 0x61], { length := 9 }⟩, ⟨[], { length := 8 }⟩]

def struckCallsAndFrame : List Transceiver.Call :=
  [⟨(sync :: struckFrame ++ [7, sync, 0x22, 0, 0x19, 0x10]).map .byte, {}⟩]

def idleCalls : List Transceiver.Call := List.replicate 12 ⟨[], {}⟩

theorem struck_frame_refused :
    ((waitingFull.collect (struckCalls ++ idleCalls)).1.flatMap (·.1.told) =
        [.badChecksum] ∧
      (waitingFull.collect (struckCalls ++ idleCalls)).1.map Prod.snd =
        (struckCalls ++ idleCalls).map (·.mine)) ∧
    ∃ p, (waitingFull.collect (struckCallsAndFrame ++ idleCalls)).1.flatMap (·.1.told) =
        [.badChecksum, .frame p] ∧
      p.header = ⟨0x22⟩ ∧ p.payload = [] := by
  have hwire : (wireBytes ⟨.data, ⟨0x21⟩, [sync]⟩).tail = [0x21, 1, sync, 0xE0, 0x21] := by
    decide +kernel
  have hflips : flips (wireBytes ⟨.data, ⟨0x21⟩, [sync]⟩).tail struckFrame =
      List.replicate 23 false ++ [true, true] ++ List.replicate 6 false ++ [true] ++
        List.replicate 6 false ++ [true, false] := by
    rw [hwire]
    decide +kernel
  have hburst : Burst (flips (wireBytes ⟨.data, ⟨0x21⟩, [sync]⟩).tail struckFrame) := by
    rw [hflips]
    refine ⟨by decide, 23, fun i hi => ?_⟩
    have hwindow : ∀ i < 40, (List.replicate 23 false ++ [true, true] ++ List.replicate 6 false ++
        [true] ++ List.replicate 6 false ++ [true, false])[i]? = some true → 23 ≤ i ∧ i < 39 := by
      decide
    exact hwindow i (List.getElem?_eq_some_iff.1 hi).1 hi
  have hrefused {calls idle : List Transceiver.Call} := @damaged_frame_refused
    ⟨.data, ⟨0x21⟩, [sync]⟩ struckFrame Uart waitingFull calls idle rfl (by decide)
    (by rw [hwire]; rfl) rfl (.inl hburst)
  constructor
  · obtain ⟨htold, hmine, -⟩ := (@hrefused struckCalls idleCalls (by decide) (by decide)
      (by decide)).1 (by decide)
    exact ⟨htold, hmine⟩
  · obtain ⟨p, htold, hheader, hpayload, -⟩ := (@hrefused struckCallsAndFrame idleCalls (by decide)
      (by decide) (by decide)).2 [7] ⟨.data, ⟨0x22⟩, []⟩ (by decide) (by decide) (by decide +kernel)
    exact ⟨p, htold, hheader, hpayload⟩

end Bench
end StarNet
