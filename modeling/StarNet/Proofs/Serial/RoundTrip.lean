import StarNet.Proofs.Checksum
import StarNet.Proofs.Serial.Stream
import StarNet.Bench.Uart

/-!
Frames sent over a serial line come in at the far end as they were sent, whatever else is on the
line between them that looks like no frame.
-/
namespace StarNet
namespace Serial

/-- A line that has a working condition in which it takes at least one byte with every write and
never fails, and which it then stays in. -/
class Accepting (T : Type) [Transmitter T] where
  Working : T → Prop
  /-- The bytes taken so far. -/
  taken : T → List UInt8
  write_takes : ∀ {line bytes}, Working line → bytes ≠ [] → ∃ n line',
    0 < n ∧ n ≤ bytes.length ∧ Transmitter.write line bytes = (some n, line') ∧ Working line' ∧
    taken line' = taken line ++ bytes.take n
  flush_keeps : ∀ {line}, Working line → ∃ line',
    Transmitter.flush line = (true, line') ∧ Working line' ∧ taken line' = taken line

/-- The bytes of a transmission on the line. -/
def wireBytes (t : Transmission) : List UInt8 :=
  sync :: t.header.byte :: t.payload.length.toUInt8 :: (t.payload ++
    (checksum (t.header.byte :: t.payload.length.toUInt8 :: t.payload)).toBytes)

def packetOf (t : Transmission) : Packet := .ofMemory t.header t.payload.length.toUInt8 t.payload

theorem setPayload_packetOf {t : Transmission} (fit : t.payload.length ≤ maxData) :
    Packet.setPayload { header := t.header } t.payload = .ok (packetOf t) :=
  Packet.setPayload_of_le fit

theorem flatten_parts_packetOf {t : Transmission} (fit : t.payload.length ≤ maxData) :
    (parts (packetOf t)).flatten = wireBytes t := by
  have hpayload : (packetOf t).payload = t.payload :=
    Packet.payload_write (Packet.toNat_length_toUInt8 fit) fit
  have hframe : (packetOf t).frame = t.header.byte :: t.payload.length.toUInt8 :: t.payload := by
    rw [Packet.frame, hpayload]
    rfl
  simp only [parts, hframe, wireBytes, List.flatten_cons, List.flatten_nil, List.append_nil,
    List.cons_append, List.nil_append]

section Parts

variable {T : Type} [Transmitter T] {line : T} {t : Transceiver T}

theorem transmit_of_long {f : Transmission} (hlong : maxData < f.payload.length) :
    Medium.transmit t f = .ok t := by
  have hset : Packet.setPayload { header := f.header } f.payload = .error .tooLong := if_pos hlong
  have hsend : t.send f.header f.payload = (.failed, t) := by rw [Transceiver.send, hset]
  simp only [Medium.transmit, hsend]

theorem transmit_of_parts {f : Transmission} {result : WriteResult}
    (fit : f.payload.length ≤ maxData)
    (hparts : writeParts t.line (parts (packetOf f)) = (result, line)) (h : result ≠ .stalled) :
    Medium.transmit t f =
      .ok { t with line := if result = .done then (Transmitter.flush line).2 else line } := by
  have hset := setPayload_packetOf fit
  cases result with
  | done =>
    have hsend : t.send f.header f.payload =
        (if (Transmitter.flush line).1 then .done else .failed,
          { t with line := (Transmitter.flush line).2 }) := by
      rw [Transceiver.send, hset]
      simp only [hparts]
    simp only [Medium.transmit, hsend, if_true]
    cases (Transmitter.flush line).1 <;> rfl
  | failed =>
    have hsend : t.send f.header f.payload = (.failed, { t with line }) := by
      rw [Transceiver.send, hset]
      simp only [hparts]
    simp [Medium.transmit, hsend]
  | stalled => exact absurd rfl h

end Parts

section Sending

variable {T : Type} [Transmitter T] [Accepting T] {line : T} {t : Transceiver T}

open Accepting

theorem writeAll_done (bytes : List UInt8) (h : Working line) : ∃ line',
    writeAll line bytes = (.done, line') ∧ Working line' ∧ taken line' = taken line ++ bytes := by
  induction hlen : bytes.length using Nat.strongRecOn generalizing bytes line with
  | ind m ih =>
    cases bytes with
    | nil => exact ⟨line, by rw [writeAll], h, (List.append_nil _).symm⟩
    | cons b bytes =>
      obtain ⟨n, next, hpos, hle, hwrite, hnext, htaken⟩ :=
        write_takes h (List.cons_ne_nil b bytes)
      obtain ⟨k, rfl⟩ : ∃ k, n = k + 1 := ⟨n - 1, by omega⟩
      rw [List.length_cons] at hlen hle
      obtain ⟨last, hdone, hlast, htaken'⟩ := ih (bytes.drop k).length
        (by rw [List.length_drop]; omega) (bytes.drop k) hnext rfl
      refine ⟨last, ?_, hlast, ?_⟩
      · rw [writeAll, hwrite]
        exact hdone
      · rw [htaken', htaken, List.append_assoc, List.take_succ_cons, List.cons_append,
          List.take_append_drop]

theorem writeParts_done (parts : List (List UInt8)) (h : Working line) : ∃ line',
    writeParts line parts = (.done, line') ∧ Working line' ∧
      taken line' = taken line ++ parts.flatten := by
  induction parts generalizing line with
  | nil => exact ⟨line, rfl, h, (List.append_nil _).symm⟩
  | cons part parts ih =>
    obtain ⟨next, hpart, hnext, htaken⟩ := writeAll_done part h
    obtain ⟨last, hparts, hlast, htaken'⟩ := ih hnext
    refine ⟨last, ?_, hlast, ?_⟩
    · rw [writeParts, hpart]
      exact hparts
    · rw [htaken', htaken, List.append_assoc, List.flatten_cons]

theorem transmit_done {f : Transmission} (h : Working t.line) (hfit : f.payload.length ≤ maxData) :
    ∃ line', Medium.transmit t f = .ok { t with line := line' } ∧ Working line' ∧
      taken line' = taken t.line ++ wireBytes f := by
  obtain ⟨next, hparts, hnext, htaken⟩ := writeParts_done (parts (packetOf f)) h
  obtain ⟨last, hflush, hlast, htaken'⟩ := flush_keeps hnext
  refine ⟨last, ?_, hlast, ?_⟩
  · rw [transmit_of_parts hfit hparts (by simp), if_pos rfl, hflush]
  · rw [htaken', htaken, flatten_parts_packetOf hfit]

/-- Sends each of the frames after some noise; tells what is on the line in the end. -/
def sendAmidNoise (t : Transceiver T) :
    List (List UInt8 × Transmission) → Except Fault (List UInt8 × Transceiver T)
  | [] => .ok ([], t)
  | (noise, frame) :: script => do
    let next ← Medium.transmit t frame
    let (bytes, last) ← sendAmidNoise next script
    return (noise ++ (taken next.line).drop (taken t.line).length ++ bytes, last)

theorem sendAmidNoise_done {script : List (List UInt8 × Transmission)} (h : Working t.line)
    (hfit : ∀ s ∈ script, s.2.payload.length ≤ maxData) : ∃ last,
      sendAmidNoise t script = .ok (script.flatMap fun s => s.1 ++ wireBytes s.2, last) := by
  induction script generalizing t with
  | nil => exact ⟨t, rfl⟩
  | cons s script ih =>
    obtain ⟨line, htransmit, hline, htaken⟩ := transmit_done h (hfit s List.mem_cons_self)
    obtain ⟨last, hlast⟩ := @ih { t with line } hline
      fun s hs => hfit s (List.mem_cons_of_mem _ hs)
    refine ⟨last, ?_⟩
    rw [sendAmidNoise, htransmit]
    simp only [bind, Except.bind, hlast, htaken, List.drop_left, List.flatMap_cons,
      List.append_assoc, pure, Except.pure]

end Sending

namespace Receiver

variable {r : Receiver}

theorem feedAll_wireBytes {t : Transmission} (idle : r.stage = .sync)
    (hfit : t.payload.length ≤ maxData) : ∃ p r', p.header = t.header ∧ p.payload = t.payload ∧
      r'.stage = .sync ∧ r.feedAll (wireBytes t) = ([.frame p], r') := by
  obtain ⟨p, r', hheader, -, hpayload, hidle, hfed⟩ := @feedAll_frame r
    (checksum (t.header.byte :: t.payload.length.toUInt8 :: t.payload)).low
    (checksum (t.header.byte :: t.payload.length.toUInt8 :: t.payload)).high
    t.payload t.header.byte _ idle (Packet.toNat_length_toUInt8 hfit) hfit
  rw [Checksum.ofBytes_low_high, if_pos rfl] at hfed
  exact ⟨p, r', hheader, hpayload, hidle, hfed⟩

theorem feedAll_script {script : List (List UInt8 × Transmission)} (idle : r.stage = .sync)
    (hfit : ∀ s ∈ script, s.2.payload.length ≤ maxData) (noise : ∀ s ∈ script, sync ∉ s.1) :
    ∃ (packets : List Packet) (r' : Receiver), packets.map (fun p => (p.header, p.payload)) =
        script.map (fun s => (s.2.header, s.2.payload)) ∧ r'.stage = .sync ∧
      r.feedAll (script.flatMap fun s => s.1 ++ wireBytes s.2) =
        (packets.map .frame, r') := by
  induction script generalizing r with
  | nil => exact ⟨[], r, rfl, idle, rfl⟩
  | cons s script ih =>
    obtain ⟨p, next, hheader, hpayload, hnext, hframe⟩ :=
      feedAll_wireBytes idle (hfit s List.mem_cons_self)
    obtain ⟨packets, last, hpackets, hlast, hrest⟩ := ih hnext
      (fun s hs => hfit s (List.mem_cons_of_mem _ hs))
      (fun s hs => noise s (List.mem_cons_of_mem _ hs))
    refine ⟨p :: packets, last, ?_, hlast, ?_⟩
    · rw [List.map_cons, List.map_cons, hpackets, hheader, hpayload]
    · rw [List.flatMap_cons, List.append_assoc, feedAll_append,
        feedAll_noise idle (noise s List.mem_cons_self), feedAll_append, hframe, hrest]
      rfl

end Receiver

/-- Let frames be sent over a line in order, with noise around them, and come in at a transceiver
that waits for a frame. However ready that line is and however the calls to receive fall, they
tell the frames as they were sent, each once and in order, and nothing else. -/
theorem frames_heard_as_sent {T R : Type} [Transmitter T] [Accepting T] {sender : Transceiver T}
    {hearer : Transceiver R} {script : List (List UInt8 × Transmission)} {tail : List UInt8}
    {schedule : List (List LineEvent)} {n : Nat} (working : Accepting.Working sender.line)
    (fit : ∀ s ∈ script, s.2.payload.length ≤ maxData) (noise : ∀ s ∈ script, sync ∉ s.1)
    (tailNoise : sync ∉ tail) (idle : hearer.receiver.stage = .sync)
    (sound : ∀ e ∈ hearer.incoming ++ schedule.flatten, ¬ e.Fails)
    (enough : (hearer.incoming ++ schedule.flatten).length ≤ n) :
    ∃ bytes last, sendAmidNoise sender script = .ok (bytes, last) ∧
      (bytesOf (hearer.incoming ++ schedule.flatten) = bytes ++ tail →
        ∃ (packets : List Packet) (hearer' : Transceiver R),
          hearer.listen (schedule ++ List.replicate n []) = (packets.map .frame, hearer') ∧
          packets.map (fun p => (p.header, p.payload)) =
            script.map (fun s => (s.2.header, s.2.payload)) ∧
          hearer'.receiver.stage = .sync ∧ hearer'.incoming = []) := by
  obtain ⟨last, hsent⟩ := sendAmidNoise_done working fit
  refine ⟨_, last, hsent, fun hbytes => ?_⟩
  obtain ⟨packets, r, hpackets, hr, hfed⟩ := Receiver.feedAll_script idle fit noise
  obtain ⟨hlisten, hdone⟩ := Transceiver.listen_all sound enough
  rw [hbytes, Receiver.feedAll_append, hfed, Receiver.feedAll_noise hr tailNoise,
    List.append_nil] at hlisten
  obtain ⟨htold, hreceiver⟩ := Prod.mk.inj hlisten
  exact ⟨packets, _, Prod.ext htold.symm rfl, hpackets, hreceiver ▸ hr, hdone⟩

end Serial

namespace Bench

open Serial

theorem UartLimits.taken_of_budget {l : UartLimits} {length : Nat} (hbudget : l.budget = none)
    (hpos : 0 < length) : ∃ n, l.taken? length = some n ∧ 0 < n ∧ n ≤ length := by
  unfold taken?
  rw [hbudget]
  refine ⟨_, rfl, ?_, ?_⟩
  · split <;> omega
  · split <;> omega

instance : Accepting Uart where
  Working u := u.limits.budget = none ∧ u.limits.flushFails = false
  taken u := u.onWire.toList
  write_takes := by
    intro u bytes ⟨hbudget, hflush⟩ hne
    obtain ⟨n, hn, hpos, hle⟩ := UartLimits.taken_of_budget hbudget (List.length_pos_iff.2 hne)
    have hwrite : (u.write bytes).1 = some n ∧
        (u.write bytes).2.onWire = u.onWire ++ (bytes.take n).toArray ∧
        (u.write bytes).2.limits = { u.limits with budget := u.limits.budget.map (· - n) } := by
      simp only [Uart.write, hn, and_self]
    obtain ⟨hanswer, hwire, hlimits⟩ := hwrite
    refine ⟨n, (u.write bytes).2, hpos, hle, Prod.ext hanswer rfl, ?_, ?_⟩
    · rw [hlimits, hbudget]
      exact ⟨rfl, hflush⟩
    · rw [hwire, Array.toList_append]
  flush_keeps := by
    intro u ⟨hbudget, hflush⟩
    refine ⟨{ u with flushes := u.flushes + 1 }, ?_, ⟨hbudget, hflush⟩, rfl⟩
    simp only [Transmitter.flush, hflush, Bool.not_false]

def twoFrames : List (List UInt8 × Transmission) :=
  [([7], ⟨.data, ⟨0x21⟩, [sync]⟩), ([8], ⟨.data, ⟨0x22⟩, []⟩)]

def twoFramesComingIn : List LineEvent :=
  [7, sync, 0x21, 1, sync, 0xE0, 0x21, 8, sync, 0x22, 0, 0x19, 0x10, 9].flatMap fun b =>
    [.byte b, .notReady]

/-- The frames are sent over a line that takes two bytes at a time. At the other end half of the
first frame is there at the start, and all else comes in before the second call. -/
theorem two_frames_heard_as_sent :
    ∃ (last : Transceiver Uart) (packets : List Packet) (hearer : Transceiver Uart),
      sendAmidNoise ⟨{}, [], { limits := { chunk := 2 } }⟩ twoFrames =
        .ok (bytesOf twoFramesComingIn.dropLast.dropLast, last) ∧
      (Transceiver.mk {} (twoFramesComingIn.take 7) ({} : Uart)).listen
        ([[], twoFramesComingIn.drop 7] ++ List.replicate 28 []) =
        (packets.map .frame, hearer) ∧
      packets.map (fun p => (p.header, p.payload)) = [(⟨0x21⟩, [sync]), (⟨0x22⟩, [])] ∧
      hearer.receiver.stage = .sync ∧ hearer.incoming = [] := by
  have hworking : Accepting.Working ({ limits := { chunk := 2 } } : Uart) := ⟨rfl, rfl⟩
  obtain ⟨bytes, last, hsent, hheard⟩ := @frames_heard_as_sent Uart Uart _ _
    ⟨{}, [], { limits := { chunk := 2 } }⟩ ⟨{}, twoFramesComingIn.take 7, {}⟩ twoFrames [9]
    [[], twoFramesComingIn.drop 7] 28 hworking (by decide) (by decide) (by decide) rfl (by decide)
    (by decide)
  obtain ⟨last', hdone⟩ := @sendAmidNoise_done Uart _ _
    ⟨{}, [], { limits := { chunk := 2 } }⟩ twoFrames hworking (by decide)
  obtain ⟨hbytes, -⟩ := Prod.mk.inj (Except.ok.inj (hsent.symm.trans hdone))
  have hwire : twoFrames.flatMap (fun s => s.1 ++ wireBytes s.2) =
      bytesOf twoFramesComingIn.dropLast.dropLast := by decide +kernel
  rw [hbytes, hwire] at hsent hheard
  obtain ⟨packets, hearer, hlisten, hpackets, hidle, hincoming⟩ := hheard (by decide)
  exact ⟨last, packets, hearer, hsent, hlisten, hpackets, hidle, hincoming⟩

end Bench
end StarNet
