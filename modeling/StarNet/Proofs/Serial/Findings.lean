import StarNet.Proofs.Serial.RoundTrip

/-!
What a stretch of bytes says when it is read as a whole, with all of it in view: the frames in it,
sound and damaged. A receiver that takes the bytes one by one tells the same, however they come to
it; a failure of the line ends a stretch.
-/
namespace StarNet

inductive Serial.Finding where
  | frame (header : Header) (payload : List UInt8)
  | damaged
  deriving DecidableEq, Repr

def Reception.finding? : Reception → Option Serial.Finding
  | .nothing => none
  | .frame p => some (.frame p.header p.payload)
  | .badChecksum => some .damaged

namespace Serial

def behindSync (bytes : List UInt8) : List UInt8 := (bytes.dropWhile (· != sync)).tail

def judge (header length : UInt8) (payload : List UInt8) (low high : UInt8) : Finding :=
  if checksum (header :: length :: payload) = .ofBytes low high then .frame ⟨header⟩ payload
  else .damaged

/-- What is found behind the first sync byte, and the bytes after it. A length that no payload has
is no finding, and the search goes on right behind it. A frame that is cut off ends the search. -/
def firstFinding? (bytes : List UInt8) : Option (Option Finding × List UInt8) :=
  match behindSync bytes with
  | header :: length :: rest =>
    if maxData < length.toNat then some (none, rest)
    else
      match rest.drop length.toNat with
      | low :: high :: behind =>
        some (some (judge header length (rest.take length.toNat) low high), behind)
      | _ => none
  | _ => none

variable {bytes rest : List UInt8} {finding? : Option Finding}

theorem behindSync_cases (bytes : List UInt8) : (sync ∉ bytes ∧ behindSync bytes = []) ∨
    ∃ noise, sync ∉ noise ∧ bytes = noise ++ sync :: behindSync bytes := by
  induction bytes with
  | nil => exact .inl ⟨List.not_mem_nil, rfl⟩
  | cons b bytes ih =>
    by_cases hb : b = sync
    · right
      refine ⟨[], List.not_mem_nil, ?_⟩
      simp [behindSync, hb]
    · have hbehind : behindSync (b :: bytes) = behindSync bytes := by simp [behindSync, hb]
      rw [hbehind]
      rcases ih with ⟨hnone, hnil⟩ | ⟨noise, hnoise, hbytes⟩
      · left
        refine ⟨?_, hnil⟩
        simpa [Ne.symm hb] using hnone
      · right
        refine ⟨b :: noise, ?_, ?_⟩
        · simpa [Ne.symm hb] using hnoise
        · rw [List.cons_append, ← hbytes]

inductive Found : Option Finding → List UInt8 → Prop where
  | overlong {header length : UInt8} : maxData < length.toNat → Found none [sync, header, length]
  | frame {header length low high : UInt8} {payload : List UInt8} :
      length.toNat = payload.length → payload.length ≤ maxData →
      Found (some (judge header length payload low high))
        (sync :: header :: length :: (payload ++ [low, high]))

theorem exists_found (h : firstFinding? bytes = some (finding?, rest)) : ∃ noise found,
    sync ∉ noise ∧ Found finding? found ∧ bytes = noise ++ (found ++ rest) := by
  rcases behindSync_cases bytes with ⟨-, hnil⟩ | ⟨noise, hnoise, hbytes⟩
  · rw [firstFinding?, hnil] at h
    cases h
  unfold firstFinding? at h
  generalize behindSync bytes = behind at h hbytes
  rcases behind with _ | ⟨header, _ | ⟨length, behind⟩⟩
  · cases h
  · cases h
  · dsimp only at h
    split at h
    next hlong =>
      cases h
      exact ⟨noise, _, hnoise, .overlong hlong, hbytes⟩
    next hfit =>
      split at h
      next low high behind' hdrop =>
        cases h
        have hlength : length.toNat = (behind.take length.toNat).length := by
          have hleft := congrArg List.length hdrop
          simp only [List.length_drop, List.length_cons] at hleft
          rw [List.length_take]
          omega
        refine ⟨noise, _, hnoise, .frame hlength (hlength ▸ Nat.not_lt.1 hfit), ?_⟩
        rw [hbytes, List.cons_append, List.cons_append, List.cons_append, List.append_assoc,
          List.cons_append, List.cons_append, List.nil_append, ← hdrop, List.take_append_drop]
      next => cases h

theorem length_lt_of_firstFinding? (h : firstFinding? bytes = some (finding?, rest)) :
    rest.length < bytes.length := by
  obtain ⟨noise, found, -, hfound, rfl⟩ := exists_found h
  have hpos : 0 < found.length := by cases hfound <;> exact Nat.zero_lt_succ _
  rw [List.length_append, List.length_append]
  omega

def findings (bytes : List UInt8) : List Finding :=
  match _hfirst : firstFinding? bytes with
  | some (finding?, rest) => finding?.toList ++ findings rest
  | none => []
termination_by bytes.length
decreasing_by exact length_lt_of_firstFinding? _hfirst

theorem findings_of_none (h : firstFinding? bytes = none) : findings bytes = [] := by
  rw [findings]
  split
  next hsome => rw [h] at hsome; cases hsome
  next => rfl

theorem findings_of_some (h : firstFinding? bytes = some (finding?, rest)) :
    findings bytes = finding?.toList ++ findings rest := by
  rw [findings]
  split
  next hsome =>
    rw [h] at hsome
    cases hsome
    rfl
  next hnone => rw [h] at hnone; cases hnone

namespace Receiver

variable {r : Receiver}

theorem feedAll_of_firstFinding?_none (idle : r.stage = .sync)
    (h : firstFinding? bytes = none) : (r.feedAll bytes).1 = [] := by
  rcases behindSync_cases bytes with ⟨hnoise, -⟩ | ⟨noise, hnoise, hbytes⟩
  · rw [feedAll_noise idle hnoise]
  rw [hbytes, feedAll_append, feedAll_noise idle hnoise, List.nil_append]
  unfold firstFinding? at h
  generalize behindSync bytes = behind at h ⊢
  rcases behind with _ | ⟨header, _ | ⟨length, rest⟩⟩
  · simp [feedAll, feed, idle]
  · rw [feedAll_opened idle]
    rfl
  · dsimp only at h
    split at h
    next => cases h
    next hfit =>
      have hfit := Nat.not_lt.1 hfit
      by_cases hshort : rest.length < length.toNat
      · have hne : length ≠ 0 := by
          rintro rfl
          exact absurd hshort (Nat.not_lt_zero _)
        rw [feedAll_opened idle, feedAll_cons_none (feed_announced hfit)]
        apply feedAll_short
        · exact if_neg hne
        · exact (Nat.zero_add rest.length).symm ▸ hshort
      · have hlength : length.toNat = (rest.take length.toNat).length := by
          rw [List.length_take_of_le (Nat.not_lt.1 hshort)]
        have hfilled : r.feedAll (sync :: header :: length :: rest.take length.toNat) =
            ([], r.filled header length (rest.take length.toNat)) :=
          feedAll_payload idle hlength (hlength ▸ hfit)
        rw [← List.take_append_drop length.toNat rest, ← List.cons_append, ← List.cons_append,
          ← List.cons_append, feedAll_append, hfilled, List.nil_append]
        generalize rest.drop length.toNat = behind at h ⊢
        rcases behind with _ | ⟨low, _ | ⟨high, behind⟩⟩
        · rfl
        · rfl
        · cases h

theorem feedAll_judged {header length low high : UInt8} {payload : List UInt8}
    (idle : r.stage = .sync) (hlength : length.toNat = payload.length)
    (hfit : payload.length ≤ maxData) : ∃ reception r', r'.stage = .sync ∧
      r.feedAll (sync :: header :: length :: (payload ++ [low, high])) = ([reception], r') ∧
      reception.finding? = some (judge header length payload low high) ∧
      ∀ p, reception = .frame p →
        encode p = sync :: header :: length :: (payload ++ [low, high]) := by
  obtain ⟨p, r', hheader, hp, hpayload, hr', hfed⟩ :=
    @feedAll_frame r low high payload header length idle hlength hfit
  by_cases hsum : checksum (header :: length :: payload) = .ofBytes low high
  · rw [if_pos hsum] at hfed
    refine ⟨_, r', hr', hfed, ?_, ?_⟩
    · rw [judge, if_pos hsum, Reception.finding?, hheader, hpayload]
    · rintro _ ⟨⟩
      have hframe : p.frame = header :: length :: payload := by
        rw [Packet.frame, hheader, hp, hpayload]
      have hpair : (checksum p.frame).toBytes = [low, high] := by
        rw [hframe]
        exact (Checksum.ofBytes_eq_iff.1 hsum.symm).symm
      rw [encode, parts, hpair, hframe]
      simp
  · rw [if_neg hsum] at hfed
    refine ⟨_, r', hr', hfed, ?_, ?_⟩
    · rw [judge, if_neg hsum, Reception.finding?]
    · rintro _ ⟨⟩

/-- What is found first is what a waiting receiver tells first, and then it waits again. A frame is
told for the very bytes that it is sent as. -/
theorem feedAll_of_firstFinding?_some (idle : r.stage = .sync)
    (h : firstFinding? bytes = some (finding?, rest)) : ∃ taken receptions r',
      bytes = taken ++ rest ∧ r'.stage = .sync ∧ r.feedAll taken = (receptions, r') ∧
      receptions.filterMap Reception.finding? = finding?.toList ∧
      ∀ p, .frame p ∈ receptions → encode p <:+: taken := by
  obtain ⟨noise, found, hnoise, hfound, rfl⟩ := exists_found h
  refine ⟨noise ++ found, ?_⟩
  rw [feedAll_append, feedAll_noise idle hnoise, List.nil_append]
  cases hfound with
  | @overlong header length hlong =>
    refine ⟨[], (r.opened header).reset, (List.append_assoc ..).symm, rfl, ?_, rfl, by simp⟩
    rw [feedAll_opened idle, feedAll_cons_none (feed_overlong hlong)]
    rfl
  | @frame header length low high payload hlength hfit =>
    obtain ⟨reception, r', hr', hfed, hjudged, hencode⟩ := feedAll_judged idle hlength hfit
    refine ⟨[reception], r', (List.append_assoc ..).symm, hr', ?_, ?_, ?_⟩
    · rw [hfed]
    · simp [hjudged]
    · intro p hp
      rw [hencode p (List.mem_singleton.1 hp).symm]
      exact (List.suffix_append noise _).isInfix

end Receiver

/-- Receptions say of a stretch of bytes what is to be found in it, and the frames among them are
on the line as they would be sent, down to the checksum. -/
structure Tells (bytes : List UInt8) (receptions : List Reception) : Prop where
  findings_eq : receptions.filterMap Reception.finding? = findings bytes
  encode_infix : ∀ p, .frame p ∈ receptions → encode p <:+: bytes

theorem Receiver.feedAll_tells {r : Receiver} (idle : r.stage = .sync) (bytes : List UInt8) :
    Tells bytes (r.feedAll bytes).1 := by
  induction hlen : bytes.length using Nat.strongRecOn generalizing bytes r with
  | ind n ih =>
    cases hfirst : firstFinding? bytes with
    | none =>
      have hnone := feedAll_of_firstFinding?_none idle hfirst
      constructor
      · rw [hnone, findings_of_none hfirst]
        rfl
      · intro p hp
        rw [hnone] at hp
        cases hp
    | some found =>
      obtain ⟨finding?, rest⟩ := found
      obtain ⟨taken, receptions, r', rfl, hidle, hfed, hfindings, hencode⟩ :=
        feedAll_of_firstFinding?_some idle hfirst
      have hrest := ih rest.length (hlen ▸ length_lt_of_firstFinding? hfirst) hidle rest rfl
      rw [feedAll_append, hfed]
      constructor
      · rw [List.filterMap_append, hfindings, hrest.findings_eq, findings_of_some hfirst]
      · intro p hp
        rcases List.mem_append.1 hp with hp | hp
        · exact (hencode p hp).trans (List.prefix_append taken rest).isInfix
        · exact (hrest.encode_infix p hp).trans (List.suffix_append taken rest).isInfix

/-- The stretches of bytes between failures of the line. -/
def segments (events : List LineEvent) : List (List UInt8) :=
  (events.splitOnP fun e => decide e.Fails).map bytesOf

theorem segments_failure {e : LineEvent} (he : e.Fails) (events : List LineEvent) :
    segments (e :: events) = [] :: segments events := by
  rw [segments, List.splitOnP_cons_eq_if_modifyHead, if_pos (decide_eq_true he)]
  rfl

theorem segments_cons {e : LineEvent} (he : ¬ e.Fails) (events : List LineEvent) :
    segments (e :: events) = (segments events).modifyHead (e.byte?.toList ++ ·) := by
  rw [segments, List.splitOnP_cons_eq_if_modifyHead, if_neg (by simpa using he), segments]
  cases events.splitOnP fun e => decide e.Fails with
  | nil => rfl
  | cons first later => cases e <;> rfl

/-- Receptions say of stretches of bytes what is to be found in them one by one. -/
structure Reports (stretches : List (List UInt8)) (receptions : List Reception) : Prop where
  findings_eq : receptions.filterMap Reception.finding? = stretches.flatMap findings
  encode_infix : ∀ p, .frame p ∈ receptions → ∃ stretch ∈ stretches, encode p <:+: stretch

theorem Reports.nil : Reports [] [] := ⟨rfl, fun _ hp => absurd hp List.not_mem_nil⟩

theorem Reports.cons {stretch : List UInt8} {stretches : List (List UInt8)}
    {receptions more : List Reception} (h : Tells stretch receptions)
    (hmore : Reports stretches more) : Reports (stretch :: stretches) (receptions ++ more) := by
  constructor
  · rw [List.filterMap_append, h.findings_eq, hmore.findings_eq, List.flatMap_cons]
  · intro p hp
    rcases List.mem_append.1 hp with hp | hp
    · exact ⟨stretch, List.mem_cons_self, h.encode_infix p hp⟩
    · obtain ⟨stretch', hmem, hinfix⟩ := hmore.encode_infix p hp
      exact ⟨stretch', List.mem_cons_of_mem _ hmem, hinfix⟩

/-- Nothing but a failure keeps bytes from being read in one go. What had come of a frame before it
is not told, nor is it heard afterwards. -/
theorem Receiver.hearAll_segments (r : Receiver) (events : List LineEvent) :
    ∃ first later told, segments events = first :: later ∧
      (r.hearAll events).1 = (r.feedAll first).1 ++ told ∧ Reports later told := by
  induction events generalizing r with
  | nil => exact ⟨[], [], [], rfl, rfl, .nil⟩
  | cons e events ih =>
    cases e with
    | byte b =>
      obtain ⟨first, later, told, hsegments, htold, hlater⟩ := ih (r.feed b).1
      refine ⟨b :: first, later, told, ?_, ?_, hlater⟩
      · have hb : ¬ (LineEvent.byte b).Fails := by simp [LineEvent.Fails]
        rw [segments_cons hb, hsegments]
        rfl
      · simp only [hearAll, feedAll, htold, List.append_assoc]
    | notReady | readsNothing =>
      obtain ⟨first, later, told, hsegments, htold, hlater⟩ := ih r
      refine ⟨first, later, told, ?_, htold, hlater⟩
      rw [segments_cons (by decide), hsegments]
      rfl
    | readFails | readyFails =>
      obtain ⟨first, later, told, hsegments, htold, hlater⟩ := ih r.reset
      refine ⟨[], first :: later, (r.reset.feedAll first).1 ++ told, ?_, ?_, ?_⟩
      · rw [segments_failure (by decide), hsegments]
      · rw [hearAll, htold]
        rfl
      · exact .cons (feedAll_tells rfl first) hlater

theorem Receiver.hearAll_reports {r : Receiver} (idle : r.stage = .sync)
    (events : List LineEvent) : Reports (segments events) (r.hearAll events).1 := by
  obtain ⟨first, later, told, hsegments, htold, hlater⟩ := r.hearAll_segments events
  rw [hsegments, htold]
  exact .cons (feedAll_tells idle first) hlater

/-- Calls of a new transceiver tell, of the events that they took off the line, what reading the
bytes between two failures as a whole would. When calls enough are made that is all of them, so that
it makes no difference which bytes a call found on the line. -/
theorem Transceiver.listen_reports {T : Type} (line : T) (schedule : List (List LineEvent))
    (extra : Nat) :
    (∃ taken, schedule.flatten =
        taken ++ (({ line } : Transceiver T).listen schedule).2.incoming ∧
      Reports (segments taken) (({ line } : Transceiver T).listen schedule).1) ∧
    (({ line } : Transceiver T).listen
      (schedule ++ List.replicate (schedule.flatten.length + extra) [])).2.incoming = [] ∧
    Reports (segments schedule.flatten) (({ line } : Transceiver T).listen
      (schedule ++ List.replicate (schedule.flatten.length + extra) [])).1 := by
  constructor
  · obtain ⟨taken, htaken, hheard⟩ := ({ line } : Transceiver T).listen_takes schedule
    refine ⟨taken, htaken, ?_⟩
    have hreports := Receiver.hearAll_reports (r := {}) rfl taken
    rwa [hheard] at hreports
  · obtain ⟨hheard, hdone⟩ := @listen_drains T { line } schedule
      (schedule.flatten.length + extra) (Nat.le_add_right _ _)
    refine ⟨hdone, ?_⟩
    have hreports := Receiver.hearAll_reports (r := {}) rfl schedule.flatten
    rwa [show (schedule.flatten : List LineEvent) = [] ++ schedule.flatten from rfl, hheard]
      at hreports

end Serial
end StarNet
