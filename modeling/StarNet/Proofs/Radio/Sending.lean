import StarNet.Radio.Driver

/-!
A frame that is being sent keeps the buffer. Till a call to receive sees that the radio is done
with it, whatever calls are made and whatever else the radio shows, nobody else is let to send,
nothing is told, and nothing of the frame or of where the radio finds it changes.
-/
namespace StarNet.Radio

inductive Event where
  | address
  | ended
  | disabled

def Event.register : Event → Register
  | .address => .eventAddress
  | .ended => .eventEnd
  | .disabled => .eventDisabled

def raise (r : Radio) (e : Event) (value : UInt32) : Radio :=
  { r with registers := r.registers.set e.register value }

inductive Happening where
  | ask
  | collect (mine : Packet)
  | event (e : Event) (value : UInt32)

inductive Answer where
  | free (free : Bool)
  /-- What is told, with the caller's packet as it is then. -/
  | told (reception : Reception) (mine : Packet)
  deriving DecidableEq

def meet (r : Radio) : Happening → Option Answer × Radio
  | .ask =>
    let (free, r) := Medium.canSend r
    (some (.free free), r)
  | .collect mine =>
    let (reception, r) := Medium.receive r
    (some (.told reception (reception.into mine)), r)
  | .event e value => (none, r.raise e value)

def follow (r : Radio) : List Happening → List Answer × Radio
  | [] => ([], r)
  | h :: hs =>
    let (answer, r) := r.meet h
    let (answers, r) := r.follow hs
    (answer.toList ++ answers, r)

def Happening.answer (free : Bool) : Happening → Option Answer
  | .ask => some (.free free)
  | .collect mine => some (.told .nothing mine)
  | .event _ _ => none

/-- No call to receive is made while the disabled event shows. -/
def EndUnseen (r : Radio) : List Happening → Prop
  | [] => True
  | h :: hs =>
    (∀ mine, h = .collect mine → r.registers.value .eventDisabled = 0) ∧ (r.meet h).2.EndUnseen hs

/-- Writes to registers, all that were made from one point to another. -/
def writesSince (r r' : Radio) : List (Register × UInt32) :=
  r'.registers.written.drop r.registers.written.length

def tasksSince (r r' : Radio) : List (Register × UInt32) :=
  (writesSince r r').filter (·.1.isTask)

structure Untouched (r r' : Radio) : Prop where
  phase : r'.phase = r.phase
  buffer : r'.buffer = r.buffer
  written : r'.registers.written = r.registers.written
  value : ∀ register, (∀ e : Event, e.register ≠ register) →
    r'.registers.value register = r.registers.value register

/-- The radio has a frame to send, in the buffer that it is pointed at. -/
structure Sends (header : Header) (payload : List UInt8) (r : Radio) : Prop where
  phase : r.phase = .sending
  pointer : r.registers.value .packetPointer = bufferAddress
  frame : r.buffer.frame = header.byte :: payload.length.toUInt8 :: payload

/-- The receiver was started, once and with all events cleared. Anybody is let to send and nothing
is told till an address is matched or a call to receive finds the radio disabled. -/
structure ListensAnew (r r' : Radio) : Prop where
  phase : r'.phase = .receiving
  tasks : tasksSince r r' = [(.taskReceive, 1)]
  cleared : ∀ e : Event, (e.register, 0) ∈ writesSince r r' ∧ r'.registers.value e.register = 0
  free : ∀ hs, (∀ value, .event .address value ∉ hs) → r'.EndUnseen hs →
    (r'.follow hs).1 = hs.filterMap (Happening.answer true) ∧ Untouched r' (r'.follow hs).2

inductive Answers (r : Radio) (hs : List Happening) : Bool → Prop where
  | sending : r.phase = .sending → Answers r hs false
  | listening : r.phase = .receiving → r.registers.value .eventAddress = 0 →
      (∀ value, .event .address value ∉ hs) → Answers r hs true

variable {r r' r'' : Radio} {h : Happening} {hs : List Happening} {free : Bool} {header : Header}
  {payload : List UInt8}

theorem Event.register_injective {e e' : Event} (h : e.register = e'.register) : e = e' := by
  cases e <;> cases e' <;> first | rfl | cases h

theorem Untouched.refl (r : Radio) : Untouched r r := ⟨rfl, rfl, rfl, fun _ _ => rfl⟩

theorem Untouched.trans (h : Untouched r r') (h' : Untouched r' r'') : Untouched r r'' :=
  ⟨h'.phase.trans h.phase, h'.buffer.trans h.buffer, h'.written.trans h.written,
    fun register hother => (h'.value register hother).trans (h.value register hother)⟩

theorem Untouched.raise (r : Radio) (e : Event) (value : UInt32) : Untouched r (r.raise e value) :=
  ⟨rfl, rfl, rfl, fun _ hother => if_neg (hother e).symm⟩

theorem Sends.of_untouched (h : Sends header payload r) (hr : Untouched r r') :
    Sends header payload r' :=
  ⟨hr.phase.trans h.phase, (hr.value .packetPointer (by rintro ⟨⟩ <;> nofun)).trans h.pointer,
    (congrArg Packet.frame hr.buffer).trans h.frame⟩

theorem receive_unseen (h : r.registers.value .eventDisabled = 0) : r.receive = (.nothing, r) :=
  if_pos (.inr h)

theorem receive_of_ended (hphase : r.phase = .sending)
    (hdisabled : r.registers.value .eventDisabled ≠ 0) : r.receive = (.nothing, r.listen) := by
  rw [Radio.receive, if_neg (by simp [hphase, hdisabled]), if_pos hphase]

theorem Answers.canSend (h : Answers r hs free) : r.canSend = free := by
  cases h with
  | sending hphase => simp [Radio.canSend, hphase]
  | listening hphase haddress => simp [Radio.canSend, hphase, haddress]

theorem Answers.meet (hr : Answers r (h :: hs) free)
    (hunseen : ∀ mine, h = .collect mine → r.registers.value .eventDisabled = 0) :
    (r.meet h).1 = h.answer free ∧ Untouched r (r.meet h).2 ∧ Answers (r.meet h).2 hs free := by
  have hsame : Answers r hs free := by
    cases hr with
    | sending hphase => exact .sending hphase
    | listening hphase haddress hnone =>
      exact .listening hphase haddress fun value hmem => hnone value (List.mem_cons_of_mem _ hmem)
  cases h with
  | ask => exact ⟨congrArg (fun free => some (Answer.free free)) hr.canSend, .refl r, hsame⟩
  | collect mine =>
    have hreceive := receive_unseen (hunseen mine rfl)
    have hmeet : r.meet (.collect mine) = (some (.told .nothing mine), r) := by
      simp only [Radio.meet, Medium.receive, hreceive, Reception.into]
    rw [hmeet]
    exact ⟨rfl, .refl r, hsame⟩
  | event e value =>
    refine ⟨rfl, .raise r e value, ?_⟩
    cases hr with
    | sending hphase => exact .sending hphase
    | listening hphase haddress hnone =>
      refine .listening hphase ?_ fun value hmem => hnone value (List.mem_cons_of_mem _ hmem)
      have hother : Register.eventAddress ≠ e.register := by
        intro heq
        cases Event.register_injective (e := .address) heq
        exact hnone value List.mem_cons_self
      exact (if_neg hother).trans haddress

theorem Answers.follow (hr : Answers r hs free) (hunseen : r.EndUnseen hs) :
    (r.follow hs).1 = hs.filterMap (Happening.answer free) ∧ Untouched r (r.follow hs).2 := by
  induction hs generalizing r with
  | nil => exact ⟨rfl, .refl r⟩
  | cons h hs ih =>
    obtain ⟨hanswer, huntouched, hnext⟩ := hr.meet hunseen.1
    obtain ⟨hanswers, hrest⟩ := ih hnext hunseen.2
    refine ⟨?_, huntouched.trans hrest⟩
    simp only [Radio.follow, hanswer, hanswers, List.filterMap_cons]
    cases h.answer free <;> rfl

theorem written_writeAll (rs : Registers) (writes : List (Register × UInt32)) :
    (rs.writeAll writes).written = rs.written ++ writes := by
  induction writes generalizing rs with
  | nil => exact (List.append_nil _).symm
  | cons w writes ih => exact (ih (rs.write w.1 w.2)).trans (List.append_assoc ..)

theorem writesSince_of_append {writes : List (Register × UInt32)}
    (h : r'.registers.written = r.registers.written ++ writes) : writesSince r r' = writes := by
  rw [writesSince, h, List.drop_left]

theorem writesSince_listen (r : Radio) : writesSince r r.listen =
    [(.packetPointer, bufferAddress), (.eventAddress, 0), (.eventEnd, 0), (.eventDisabled, 0),
      (.taskReceive, 1)] :=
  writesSince_of_append (written_writeAll r.registers _)

theorem listen_listensAnew (h : r.registers.written = r'.registers.written) :
    ListensAnew r' r.listen := by
  have hwrites : writesSince r' r.listen = writesSince r r.listen := by simp only [writesSince, h]
  rw [writesSince_listen] at hwrites
  refine ⟨rfl, ?_, fun e => ?_, fun hs hnone hunseen => ?_⟩
  · rw [tasksSince, hwrites]
    rfl
  · rw [hwrites]
    cases e <;> exact ⟨by simp [Event.register], rfl⟩
  · exact Answers.follow (.listening rfl rfl hnone) hunseen

theorem disable_eq_of_raised (r : Radio) (value : UInt32) :
    ((r.write [(.taskDisable, 1)]).raise .disabled value).write [(.eventDisabled, 0)] =
      r.disable := by
  have hvalue : (((r.write [(.taskDisable, 1)]).raise .disabled value).write
      [(.eventDisabled, 0)]).registers.value = r.disable.registers.value := by
    funext register
    cases register <;> rfl
  exact congrArg (fun value => { r with
    registers := { value, written := r.disable.registers.written } }) hvalue

theorem written_disable_write (r : Radio) (writes : List (Register × UInt32)) :
    (r.disable.write writes).registers.written =
      r.registers.written ++ ((.taskDisable, 1) :: (.eventDisabled, 0) :: writes) := by
  have hdisable : r.disable.registers.written =
      r.registers.written ++ [(.taskDisable, 1), (.eventDisabled, 0)] := written_writeAll ..
  rw [write, written_writeAll, hdisable, List.append_assoc]
  rfl

theorem send_of_le (r : Radio) (header : Header) {payload : List UInt8}
    (fit : payload.length ≤ maxData) :
    r.send header payload =
      { ({ r.disable with buffer := { r.disable.buffer with
          header, length := payload.length.toUInt8, buffer := r.buffer.buffer.write 0 payload } }
        ).write [(.packetPointer, bufferAddress), (.eventDisabled, 0), (.taskSend, 1)] with
        phase := .sending } := by
  unfold send
  dsimp only
  rw [Packet.setPayload_of_le fit]
  rfl

theorem send_of_long (r : Radio) (header : Header) {payload : List UInt8}
    (long : maxData < payload.length) :
    r.send header payload = { r.disable with buffer := { r.buffer with header } }.listen := by
  have hset : ({ r.disable.buffer with header } : Packet).setPayload payload = .error .tooLong :=
    if_pos long
  unfold send
  dsimp only
  rw [hset]
  rfl

theorem send_sends (r : Radio) (header : Header) (fit : payload.length ≤ maxData) :
    Sends header payload (r.send header payload) := by
  rw [send_of_le r header fit]
  refine ⟨rfl, rfl, ?_⟩
  have hpayload : (Packet.mk header payload.length.toUInt8
      (r.buffer.buffer.write 0 payload)).payload = payload :=
    Packet.payload_write (Packet.toNat_length_toUInt8 fit) fit
  exact congrArg (header.byte :: payload.length.toUInt8 :: ·) hpayload

theorem writesSince_send_of_le (r : Radio) (header : Header) (fit : payload.length ≤ maxData) :
    writesSince r (r.send header payload) =
      [(.taskDisable, 1), (.eventDisabled, 0), (.packetPointer, bufferAddress),
        (.eventDisabled, 0), (.taskSend, 1)] := by
  apply writesSince_of_append
  rw [send_of_le r header fit]
  exact written_disable_write r _

theorem writesSince_send_of_long (r : Radio) (header : Header) (long : maxData < payload.length) :
    writesSince r (r.send header payload) =
      [(.taskDisable, 1), (.eventDisabled, 0), (.packetPointer, bufferAddress), (.eventAddress, 0),
        (.eventEnd, 0), (.eventDisabled, 0), (.taskReceive, 1)] := by
  apply writesSince_of_append
  rw [send_of_long r header long]
  exact written_disable_write r _

/-- What becomes of a radio that was given a frame to send. -/
structure Transmits (r : Radio) (header : Header) (payload : List UInt8) : Prop where
  tasks : tasksSince r (r.send header payload) = [(.taskDisable, 1), (.taskSend, 1)]
  clear : (r.send header payload).registers.value .eventDisabled = 0
  /-- Whatever happens before a call to receive sees the end, every question is refused. -/
  kept : ∀ hs answers r', (r.send header payload).EndUnseen hs →
    (r.send header payload).follow hs = (answers, r') →
    answers = hs.filterMap (Happening.answer false) ∧
      Untouched (r.send header payload) r' ∧ Sends header payload r'
  /-- The call that sees the end tells nothing either. -/
  done : ∀ hs answers r' mine, (r.send header payload).EndUnseen hs →
    (r.send header payload).follow hs = (answers, r') → r'.registers.value .eventDisabled ≠ 0 →
    (r'.meet (.collect mine)).1 = some (.told .nothing mine) ∧
      ListensAnew r' (r'.meet (.collect mine)).2

theorem transmits_of_le (r : Radio) (header : Header) (fit : payload.length ≤ maxData) :
    r.Transmits header payload := by
  have hsends := send_sends r header fit
  have hkept : ∀ hs answers r', (r.send header payload).EndUnseen hs →
      (r.send header payload).follow hs = (answers, r') →
      answers = hs.filterMap (Happening.answer false) ∧
        Untouched (r.send header payload) r' ∧ Sends header payload r' := by
    intro hs answers r' hunseen hfollow
    obtain ⟨hanswers, huntouched⟩ := Answers.follow (.sending hsends.phase) hunseen
    rw [hfollow] at hanswers huntouched
    exact ⟨hanswers, huntouched, hsends.of_untouched huntouched⟩
  refine ⟨?_, ?_, hkept, ?_⟩
  · rw [tasksSince, writesSince_send_of_le r header fit]
    rfl
  · rw [send_of_le r header fit]
    rfl
  · intro hs answers r' mine hunseen hfollow hdisabled
    have hreceive := receive_of_ended (hkept hs answers r' hunseen hfollow).2.2.phase hdisabled
    have hmeet : r'.meet (.collect mine) = (some (.told .nothing mine), r'.listen) := by
      simp only [meet, Medium.receive, hreceive, Reception.into]
    rw [hmeet]
    exact ⟨rfl, listen_listensAnew rfl⟩

/-- A frame that fits is sent from the buffer, which is kept till a call sees that it is sent; then
the receiver is started anew. One that does not fit is never sent, and the receiver is started at
once. That the radio shows itself disabled as it is stopped for this makes no difference. -/
theorem buffer_kept_till_sent (r : Radio) (header : Header) (payload : List UInt8) :
    (payload.length ≤ maxData → r.Transmits header payload) ∧
    (maxData < payload.length →
      (∀ value, (.taskSend, value) ∉ writesSince r (r.send header payload)) ∧
      ListensAnew r.disable (r.send header payload)) ∧
    ∀ value, ((r.write [(.taskDisable, 1)]).raise .disabled value).write [(.eventDisabled, 0)] =
      r.disable := by
  refine ⟨transmits_of_le r header, fun long => ⟨?_, ?_⟩, disable_eq_of_raised r⟩
  · rw [writesSince_send_of_long r header long]
    simp
  · rw [send_of_long r header long]
    exact listen_listensAnew rfl

def holdingFull : Radio :=
  (({} : Radio).configure {} .normal).frameArrived
    { header := ⟨0x85⟩, length := 66, buffer := Buffer.zero.write 0 (List.replicate 66 9) }
    true none

def sendingOff : List Happening :=
  [.ask, .collect { length := 9 }, .event .address 1, .ask, .collect {}, .event .ended 1,
    .event .disabled 1, .ask]

theorem holdingFull_keeps_till_sent :
    (∃ r', (holdingFull.send ⟨0x21⟩ [7]).follow sendingOff =
        ([.free false, .told .nothing { length := 9 }, .free false, .told .nothing {},
          .free false], r') ∧
      r'.buffer.frame = [0x21, 1, 7] ∧ ListensAnew r' (r'.meet (.collect {})).2) ∧
    ListensAnew holdingFull.disable (holdingFull.send ⟨0x21⟩ (List.replicate 67 7)) := by
  have hunseen : (holdingFull.send ⟨0x21⟩ [7]).EndUnseen sendingOff :=
    ⟨nofun, fun _ _ => rfl, nofun, nofun, fun _ _ => rfl, nofun, nofun, nofun, trivial⟩
  have htransmits := (buffer_kept_till_sent holdingFull ⟨0x21⟩ [7]).1 (by decide)
  obtain ⟨hanswers, -, hsends⟩ := htransmits.kept sendingOff _ _ hunseen rfl
  refine ⟨⟨_, Prod.ext hanswers rfl, hsends.frame, ?_⟩, ?_⟩
  · exact (htransmits.done sendingOff _ _ {} hunseen rfl (by decide)).2
  · exact ((buffer_kept_till_sent holdingFull ⟨0x21⟩ (List.replicate 67 7)).2.1 (by decide)).2

end StarNet.Radio
