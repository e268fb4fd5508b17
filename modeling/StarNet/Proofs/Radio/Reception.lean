import StarNet.Radio.Driver

/-!
The radio loses no frame and tells none twice. One buffer serves both directions and one event
tells the end of every transfer, so what keeps a frame that waits to be collected is that the radio
lets nobody send then.
-/
namespace StarNet.Radio

def sendingEnded (r : Radio) : Radio :=
  { r with registers := ((r.registers.set .eventAddress 1).set .eventEnd 1).set .eventDisabled 1 }

/-- What happens to a radio, from its caller and from the air. -/
inductive Occurrence where
  | asked (free : Bool)
  | sent (header : Header) (payload : List UInt8)
  /-- The caller learns what came in, with its own packet as it was and as it is then. -/
  | collected (told : Reception) (before after : Packet)
  | arrived (packet : Packet) (checksumOk : Bool)
  | sendingEnded
  deriving DecidableEq

/-- One thing more that may happen, given what has happened. Sending follows on the very permission:
nothing arrives between the two. A transfer ends only in the direction that the radio works in, and
an arrival only when none is being told already. -/
inductive Step (log : List Occurrence) (r : Radio) : Occurrence → Radio → Prop where
  | ask : Step log r (.asked r.canSend) r
  | send (header : Header) (payload : List UInt8) (permitted : log.getLast? = some (.asked true)) :
      Step log r (.sent header payload) (r.send header payload)
  | collect (mine : Packet) :
      Step log r (.collected r.receive.1 mine (r.receive.1.into mine)) r.receive.2
  | arrive (packet : Packet) (checksumOk : Bool) (sample : Option UInt32)
      (listening : r.phase = .receiving) (clear : r.registers.value .eventDisabled = 0) :
      Step log r (.arrived packet checksumOk) (r.frameArrived packet checksumOk sample)
  | endSending (sending : r.phase = .sending) : Step log r .sendingEnded r.sendingEnded

inductive Course (start : Radio) : List Occurrence → Radio → Prop where
  | start : Course start [] start
  | step {log : List Occurrence} {e : Occurrence} {r r' : Radio} :
      Course start log r → Step log r e r' → Course start (log ++ [e]) r'

def received (packet : Packet) (checksumOk : Bool) : Reception :=
  if checksumOk then .frame packet else .badChecksum

def arrivals (log : List Occurrence) : List Reception :=
  log.filterMap fun
    | .arrived packet checksumOk => some (received packet checksumOk)
    | _ => none

/-- What the caller was told, calls that found nothing left out. -/
def results (log : List Occurrence) : List Reception :=
  log.filterMap fun
    | .collected told _ _ => if told = .nothing then none else some told
    | _ => none

def noteDue (due : Option Reception) : Occurrence → Option Reception
  | .arrived packet checksumOk => some (received packet checksumOk)
  | .collected _ _ _ => none
  | _ => due

/-- The arrival that was not followed by a collection yet. -/
def due (log : List Occurrence) : Option Reception := log.foldl noteDue none

/-- How the driver has to deal with an arrival that waits, or with there being none. -/
def Faithful (due : Option Reception) : Occurrence → Prop
  | .asked free => due ≠ none → free = false
  | .collected told before after =>
    told = due.getD .nothing ∧ after = (due.getD .nothing).into before
  | .sent _ _ | .arrived _ _ => due = none
  | .sendingEnded => True

/-- Where the radio stands with what waits in it. -/
inductive Stands (r : Radio) : Option Reception → Prop where
  | listening : r.phase = .receiving → r.registers.value .eventDisabled = 0 → Stands r none
  | holding (reception : Reception) : r.phase = .receiving → r.registers.value .eventAddress ≠ 0 →
      r.registers.value .eventDisabled ≠ 0 → r.verdict = reception → Stands r (some reception)
  | sending : r.phase = .sending → Stands r none

variable {r r' : Radio} {log : List Occurrence} {e : Occurrence} {reception? : Option Reception}

theorem arrivals_concat (log : List Occurrence) (e : Occurrence) :
    arrivals (log ++ [e]) = arrivals log ++ arrivals [e] := List.filterMap_append

theorem results_concat (log : List Occurrence) (e : Occurrence) :
    results (log ++ [e]) = results log ++ results [e] := List.filterMap_append

theorem due_concat (log : List Occurrence) (e : Occurrence) :
    due (log ++ [e]) = noteDue (due log) e := by
  rw [due, List.foldl_append]
  rfl

theorem listen_stands (r : Radio) : Stands r.listen none := .listening rfl rfl

theorem configure_stands (r : Radio) (identity : Identity) (mode : RadioMode) :
    Stands (r.configure identity mode) none := listen_stands _

theorem send_stands (r : Radio) (header : Header) (payload : List UInt8) :
    Stands (r.send header payload) none := by
  unfold send
  dsimp only
  split
  · exact listen_stands _
  · exact .sending rfl

theorem frameArrived_stands (h : r.phase = .receiving) (packet : Packet) (checksumOk : Bool)
    (sample : Option UInt32) :
    Stands (r.frameArrived packet checksumOk sample) (some (received packet checksumOk)) := by
  have hchecksum : (r.frameArrived packet checksumOk sample).registers.value .checksumStatus =
      if checksumOk then 1 else 0 := by
    cases sample <;> rfl
  apply Stands.holding
  · exact h
  · have haddress : (r.frameArrived packet checksumOk sample).registers.value .eventAddress = 1 :=
      rfl
    rw [haddress]
    decide
  · have hdisabled : (r.frameArrived packet checksumOk sample).registers.value .eventDisabled = 1 :=
      rfl
    rw [hdisabled]
    decide
  · rw [verdict, hchecksum]
    cases checksumOk <;> rfl

theorem Stands.not_free (h : Stands r reception?) (hdue : reception? ≠ none) :
    r.canSend = false := by
  cases h with
  | listening => exact absurd rfl hdue
  | holding reception hphase haddress =>
    rw [canSend, beq_false_of_ne haddress, Bool.and_false]
  | sending => exact absurd rfl hdue

theorem Stands.receive (h : Stands r reception?) :
    r.receive.1 = reception?.getD .nothing ∧ Stands r.receive.2 none := by
  cases h with
  | listening hphase hclear =>
    have hidle : r.receive = (.nothing, r) := by rw [Radio.receive, if_pos (.inr hclear)]
    rw [hidle]
    exact ⟨rfl, .listening hphase hclear⟩
  | holding reception hphase haddress hdisabled hverdict =>
    have htold : r.receive = (reception, r.listen) := by
      rw [Radio.receive, if_neg (by simp [hphase, hdisabled]), if_neg (by simp [hphase]), hverdict]
    rw [htold]
    exact ⟨rfl, listen_stands r⟩
  | sending hphase =>
    by_cases hdisabled : r.registers.value .eventDisabled = 0
    · have hidle : r.receive = (.nothing, r) := by rw [Radio.receive, if_pos (.inr hdisabled)]
      rw [hidle]
      exact ⟨rfl, .sending hphase⟩
    · have hended : r.receive = (.nothing, r.listen) := by
        rw [Radio.receive, if_neg (by simp [hphase, hdisabled]), if_pos hphase]
      rw [hended]
      exact ⟨rfl, listen_stands r⟩

/-- What holds of a radio and of all that has happened to it. -/
structure Invariant (log : List Occurrence) (r : Radio) : Prop where
  stands : Stands r (due log)
  /-- A permission still holds when nothing has happened since. -/
  permission : log.getLast? = some (.asked true) → r.canSend = true
  counted : results log ++ (due log).toList = arrivals log
  faithful : ∀ before e, before ++ [e] <+: log → Faithful (due before) e

theorem Invariant.nothing_due (h : Invariant log r)
    (permitted : log.getLast? = some (.asked true)) : due log = none := by
  cases hdue : due log with
  | none => rfl
  | some reception =>
    have hrefused := h.stands.not_free (by simp [hdue])
    cases hrefused.symm.trans (h.permission permitted)

theorem Step.stands (hstep : Step log r e r') (h : Invariant log r) :
    Stands r' (noteDue (due log) e) := by
  cases hstep with
  | ask => exact h.stands
  | send header payload permitted =>
    rw [h.nothing_due permitted]
    exact send_stands r header payload
  | collect mine => exact h.stands.receive.2
  | arrive packet checksumOk sample listening clear =>
    exact frameArrived_stands listening packet checksumOk sample
  | endSending sending =>
    cases hdue : due log with
    | none => exact .sending sending
    | some reception =>
      cases hdue ▸ h.stands with
      | holding _ hphase => cases hphase.symm.trans sending

theorem Step.faithful (hstep : Step log r e r') (h : Invariant log r) :
    Faithful (due log) e := by
  cases hstep with
  | ask => exact h.stands.not_free
  | send header payload permitted => exact h.nothing_due permitted
  | collect mine =>
    obtain ⟨htold, -⟩ := h.stands.receive
    exact ⟨htold, by rw [htold]⟩
  | arrive packet checksumOk sample listening clear =>
    change due log = none
    cases hdue : due log with
    | none => rfl
    | some reception =>
      cases hdue ▸ h.stands with
      | holding _ _ _ hdisabled => exact absurd clear hdisabled
  | endSending sending => trivial

theorem Stands.waits (h : Stands r reception?) : reception? ≠ some .nothing := by
  cases h with
  | listening => simp
  | holding reception _ _ _ hverdict =>
    rintro ⟨rfl⟩
    unfold verdict at hverdict
    split at hverdict <;> cases hverdict
  | sending => simp

theorem counted_concat (hwaits : due log ≠ some .nothing) (hfaithful : Faithful (due log) e)
    (h : results log ++ (due log).toList = arrivals log) :
    results (log ++ [e]) ++ (due (log ++ [e])).toList = arrivals (log ++ [e]) := by
  rw [results_concat, due_concat, arrivals_concat, ← h]
  cases e with
  | asked free => simp [results, arrivals, noteDue]
  | sent header payload => simp [results, arrivals, noteDue]
  | sendingEnded => simp [results, arrivals, noteDue]
  | arrived packet checksumOk =>
    have hnone : due log = none := hfaithful
    rw [hnone]
    simp [results, arrivals, noteDue]
  | collected told before after =>
    obtain ⟨rfl, -⟩ := hfaithful
    cases hdue : due log with
    | none => simp [results, arrivals, noteDue]
    | some reception =>
      have htold : reception ≠ .nothing := fun hnone => hwaits (hdue.trans (congrArg some hnone))
      simp [results, arrivals, noteDue, htold]

theorem Step.eq_of_asked {free : Bool} (h : Step log r (.asked free) r') :
    r' = r ∧ free = r.canSend := by
  generalize he : Occurrence.asked free = e at h
  cases h <;> cases he
  exact ⟨rfl, rfl⟩

theorem Invariant.step (hstep : Step log r e r') (h : Invariant log r) :
    Invariant (log ++ [e]) r' where
  stands := by
    rw [due_concat]
    exact hstep.stands h
  permission := by
    intro hlast
    rw [List.getLast?_concat, Option.some.injEq] at hlast
    subst hlast
    obtain ⟨rfl, hfree⟩ := hstep.eq_of_asked
    exact hfree.symm
  counted := counted_concat h.stands.waits (hstep.faithful h) h.counted
  faithful := by
    intro before e' hbefore
    rcases List.prefix_concat_iff.1 hbefore with heq | hlog
    · obtain ⟨rfl, hlast⟩ := List.append_inj' heq rfl
      cases hlast
      exact hstep.faithful h
    · exact h.faithful before e' hlog

theorem Invariant.start (r : Radio) (identity : Identity) (mode : RadioMode) :
    Invariant [] (r.configure identity mode) where
  stands := configure_stands r identity mode
  permission := by
    intro hlast
    cases hlast
  counted := rfl
  faithful := by
    intro before e hbefore
    exact absurd (List.prefix_nil.1 hbefore) (by simp)

theorem Course.invariant {identity : Identity} {mode : RadioMode}
    (h : Course (r.configure identity mode) log r') : Invariant log r' := by
  induction h with
  | start => exact .start r identity mode
  | step _ hstep ih => exact ih.step hstep

/-- Whatever happens to a radio after it was set up: while an arrival waits nobody is let to send,
and the next call tells it as it came in; no other call tells anything. So what was told is what
arrived, one for one and in order. -/
theorem Course.collects_all {identity : Identity} {mode : RadioMode}
    (h : Course (r.configure identity mode) log r') :
    (∀ before e, before ++ [e] <+: log → Faithful (due before) e) ∧
      results log ++ (due log).toList = arrivals log :=
  ⟨h.invariant.faithful, h.invariant.counted⟩

def twoArrivals : List Occurrence :=
  [.arrived { length := 3 } true, .asked false,
    .collected (.frame { length := 3 }) {} { length := 3 }, .asked true, .sent ⟨0x85⟩ [7],
    .asked false, .sendingEnded, .collected .nothing {} {}, .asked true, .arrived {} false,
    .collected .badChecksum { length := 9 } { length := 9 }]

theorem collects_twoArrivals : ∃ r', Course (({} : Radio).configure {} .normal) twoArrivals r' ∧
    (∀ before e, before ++ [e] <+: twoArrivals → Faithful (due before) e) ∧
    results twoArrivals ++ (due twoArrivals).toList = arrivals twoArrivals := by
  have hcourse : ∃ r', Course (({} : Radio).configure {} .normal) twoArrivals r' := by
    refine ⟨_, ((((((((((Course.start.step (.arrive _ true none ?_ ?_)).step .ask).step
      (.collect {})).step .ask).step (.send _ _ ?_)).step .ask).step (.endSending ?_)).step
      (.collect {})).step .ask).step (.arrive _ false none ?_ ?_)).step (.collect { length := 9 })⟩
    all_goals rfl
  obtain ⟨r', hcourse⟩ := hcourse
  exact ⟨r', hcourse, hcourse.collects_all⟩

end StarNet.Radio
