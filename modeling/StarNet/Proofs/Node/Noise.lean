import StarNet.Proofs.Node.Deadline

/-!
Frames that do not matter. A medium may hand over frames where it had nothing before: damaged ones,
frames for others, and acknowledgements that settle nothing. With the trace log off, a node answers
and sends the same with them as without, and ends the same but for its receive buffer.
-/
namespace StarNet

/-- Surroundings in which some questions for a frame that found nothing find noise instead. Notes
are no dealing with the surroundings here. -/
structure Noisy (W : Type) where
  quiet : W
  noise : List Reception := []

namespace Noisy

variable {W : Type}

instance [Medium W] : Medium (Noisy W) where
  enabled r := Medium.enabled r.quiet
  configure r identity mode := { r with quiet := Medium.configure r.quiet identity mode }
  canSend r :=
    let (free, quiet) := Medium.canSend r.quiet
    (free, { r with quiet })
  transmit r t := do return { r with quiet := ← Medium.transmit r.quiet t }
  receive r :=
    match Medium.receive r.quiet, r.noise with
    | (.nothing, quiet), reception :: noise => (reception, ⟨quiet, noise⟩)
    | (reception, quiet), noise => (reception, ⟨quiet, noise⟩)

section Receive

variable [Medium W] {r : Noisy W}

theorem receive_quiet (h : r.noise = []) : Medium.receive r =
    ((Medium.receive r.quiet).1, ⟨(Medium.receive r.quiet).2, []⟩) := by
  rcases hr : Medium.receive r.quiet with ⟨_ | _ | _, quiet⟩ <;>
    simp [Medium.receive, hr, h]

theorem receive_heard (h : (Medium.receive r.quiet).1 ≠ .nothing) : Medium.receive r =
    ((Medium.receive r.quiet).1, ⟨(Medium.receive r.quiet).2, r.noise⟩) := by
  rcases hr : Medium.receive r.quiet with ⟨_ | _ | _, quiet⟩ <;>
    simp_all [Medium.receive]

theorem receive_noise {reception : Reception} {noise : List Reception}
    (h : (Medium.receive r.quiet).1 = .nothing) (hn : r.noise = reception :: noise) :
    Medium.receive r = (reception, ⟨(Medium.receive r.quiet).2, noise⟩) := by
  rcases hr : Medium.receive r.quiet with ⟨_ | _ | _, quiet⟩ <;>
    simp_all [Medium.receive]

end Receive

instance [Clock W] : Clock (Noisy W) where
  now r :=
    let (time, quiet) := Clock.now r.quiet
    (time, { r with quiet })
  pause r := { r with quiet := Clock.pause r.quiet }

instance [SignalSource W] : SignalSource (Noisy W) where
  sample r :=
    let (signal, quiet) := SignalSource.sample r.quiet
    (signal, { r with quiet })

end Noisy

namespace Node

variable {W α β : Type}

/-- The same node with noise about to come in. -/
def amid (n : Node W) (noise : List Reception) : Node (Noisy W) :=
  { n with world := ⟨n.world, noise⟩ }

def veiled (n : Node (Noisy W)) (noise : List Reception) (received : Packet) : Node (Noisy W) :=
  { n with world := { n.world with noise }, received }

/-- What a node takes no notice of: damaged frames, frames directed to others, reserved control
frames, and acknowledgements that are not for it or that come while none is awaited. -/
def Irrelevant (n : Node W) : Reception → Prop
  | .nothing | .badChecksum => True
  | .frame p => n.Foreign p.header ∨ p.header.control = true ∧
      (p.header.wantsAck = true ∨ p.header.node ≠ n.identity.node.number ∨ n.sendCount = 0)

instance (n : Node W) : DecidablePred n.Irrelevant
  | .nothing | .badChecksum => .isTrue trivial
  | .frame _ => inferInstanceAs (Decidable (_ ∨ _))

/-- The same answer and the same node but for the noise and the receive buffer, or the same
fault. -/
inductive Alike : Except Fault (α × Node (Noisy W)) → Except Fault (α × Node (Noisy W)) → Prop where
  | ok (a : α) (m : Node (Noisy W)) (noise : List Reception) (received : Packet) :
      Alike (.ok (a, m)) (.ok (a, m.veiled noise received))
  | error (f : Fault) : Alike (.error f) (.error f)

def Follows (x : NodeM (Noisy W) α) (n : Node (Noisy W)) (noise : List Reception)
    (received : Packet) : Prop :=
  Alike (x.run n) (x.run (n.veiled noise received))

variable {n : Node (Noisy W)} {noise : List Reception} {received : Packet}

theorem Follows.pure (a : α) : Follows (pure a) n noise received := .ok a n noise received

theorem Follows.bind {x : NodeM (Noisy W) α} {f : α → NodeM (Noisy W) β}
    (hx : Follows x n noise received)
    (hf : ∀ a m noise' received', x.run n = .ok (a, m) →
      x.run (n.veiled noise received) = .ok (a, m.veiled noise' received') →
      Follows (f a) m noise' received') :
    Follows (x >>= f) n noise received := by
  unfold Follows at hx ⊢
  rw [StateT.run_bind, StateT.run_bind]
  generalize hr : x.run n = r, hr' : x.run (n.veiled noise received) = r' at hx
  cases hx with
  | ok a m noise' received' => exact hf a m noise' received' hr hr'
  | error f => exact .error f

theorem Alike.step {x y : NodeM (Noisy W) α} {f g : α → NodeM (Noisy W) β} {a : α}
    {m n' m' : Node (Noisy W)} (hx : x.run n = .ok (a, m)) (hy : y.run n' = .ok (a, m'))
    (h : Alike ((f a).run m) ((g a).run m')) : Alike ((x >>= f).run n) ((y >>= g).run n') := by
  rw [StateT.run_bind, StateT.run_bind, hx, hy]
  exact h

theorem Follows.step {x : NodeM (Noisy W) α} {f : α → NodeM (Noisy W) β} {a : α}
    {m : Node (Noisy W)} {noise' : List Reception} {received' : Packet}
    (hx : x.run n = .ok (a, m))
    (hy : x.run (n.veiled noise received) = .ok (a, m.veiled noise' received'))
    (h : Follows (f a) m noise' received') : Follows (x >>= f) n noise received :=
  Alike.step hx hy h

theorem Follows.fails {x : NodeM (Noisy W) α} {f : α → NodeM (Noisy W) β} {e : Fault}
    (hx : x.run n = .error e) (hy : x.run (n.veiled noise received) = .error e) :
    Follows (x >>= f) n noise received := by
  unfold Follows
  rw [StateT.run_bind, StateT.run_bind, hx, hy]
  exact .error e

theorem Follows.lift {r : Except Fault β} {f : β → NodeM (Noisy W) α}
    (h : ∀ b, Follows (f b) n noise received) :
    Follows (do f (← (liftM r : NodeM (Noisy W) β))) n noise received := by
  cases r with
  | error e => exact .fails rfl rfl
  | ok b => exact .step rfl rfl (h b)

theorem Follows.get {f : Node (Noisy W) → NodeM (Noisy W) α}
    (hf : f (n.veiled noise received) = f n) (h : Follows (f n) n noise received) :
    Follows (do f (← MonadState.get)) n noise received := by
  show Alike ((f n).run n) ((f (n.veiled noise received)).run (n.veiled noise received))
  rw [hf]
  exact h

theorem Follows.get_run {f : Node (Noisy W) → NodeM (Noisy W) α}
    (h : Alike ((f n).run n) ((f (n.veiled noise received)).run (n.veiled noise received))) :
    Follows (do f (← MonadState.get)) n noise received := h

variable [Medium W]

omit [Medium W] in
@[simp] theorem veiled_queue : (n.veiled noise received).queue = n.queue := rfl

@[simp] theorem veiled_enabled : (n.veiled noise received).enabled = n.enabled := rfl

theorem Follows.canSend {f : Bool → NodeM (Noisy W) α}
    (h : Follows (f (Medium.canSend n.world).1) { n with world := (Medium.canSend n.world).2 }
      noise received) : Follows (do f (← Node.canSend)) n noise received :=
  .step rfl rfl h

theorem Follows.transmit {t : Transmission} {f : Unit → NodeM (Noisy W) α}
    (h : ∀ quiet, Follows (f ()) { n with world := { n.world with quiet } } noise received) :
    Follows (do f (← Node.transmit t)) n noise received := by
  cases hq : Medium.transmit n.world.quiet t with
  | error e =>
    have hrun (m : Node (Noisy W)) (hm : m.world.quiet = n.world.quiet) :
        (Node.transmit t).run m = .error e := by
      refine run_eq_error ?_
      rw [outcome_transmit]
      simp only [Medium.transmit, hm, hq]
      exact ⟨nofun, fun _ h => (Except.error.inj h).symm⟩
    exact .fails (hrun n rfl) (hrun (n.veiled noise received) rfl)
  | ok quiet =>
    have hrun (m : Node (Noisy W)) (hm : m.world.quiet = n.world.quiet) :
        (Node.transmit t).run m = .ok ((), { m with world := { m.world with quiet } }) := by
      refine run_eq_ok ?_
      rw [outcome_transmit]
      simp only [Medium.transmit, hm, hq]
      refine ⟨fun w hw => ⟨trivial, ?_⟩, nofun⟩
      cases hw
      rfl
    exact .step (hrun n rfl) (hrun (n.veiled noise received) rfl) (h quiet)

theorem noteCode_run (h : n.Untraced) (code : UInt8) : (noteCode code).run n = .ok ((), n) :=
  noteCode_untraced h code

theorem noteDepth_run (h : n.Untraced) : noteDepth.run n = .ok ((), n) := noteCode_run h _

omit [Medium W] in
theorem Follows.silent {x : NodeM (Noisy W) Unit} {f : Unit → NodeM (Noisy W) α}
    (hx : ∀ m : Node (Noisy W), m.Untraced → x.run m = .ok ((), m)) (hn : n.Untraced)
    (h : Follows (f ()) n noise received) : Follows (do f (← x)) n noise received :=
  .step (hx n hn) (hx (n.veiled noise received) hn) h

theorem follows_note (hn : n.Untraced) (mark : Mark) :
    Follows (note mark) n noise received := by
  unfold Follows note
  rw [noteCode_run hn, noteCode_run (n := n.veiled noise received) hn]
  exact .ok () n noise received

theorem follows_notes (hn : n.Untraced) (mark : Mark) :
    Follows (do note mark; noteDepth) n noise received := by
  refine .silent (fun m hm => noteCode_run hm _) hn ?_
  unfold Follows
  rw [noteDepth_run hn, noteDepth_run (n := n.veiled noise received) hn]
  exact .ok () n noise received

variable [Clock W] [SignalSource W]

omit [Medium W] [SignalSource W] in
theorem Follows.awaitAck {f : Unit → NodeM (Noisy W) α}
    (h : Follows (f ()) { n with
      world := (Clock.now n.world).2
      sendCount := n.sendCount + 1
      sendTime := (Clock.now n.world).1 } noise received) :
    Follows (do f (← Node.awaitAck)) n noise received := by
  by_cases hc : n.sendCount = 255
  · have hrun (m : Node (Noisy W)) (hm : m.sendCount = 255) :
        Node.awaitAck.run m = .error .countOverflow := by
      refine run_eq_error ?_
      simp only [Node.awaitAck, outcome_bind, outcome_get, hm, if_true, outcome_throw]
    exact .fails (hrun n hc) (hrun (n.veiled noise received) hc)
  · have hrun (m : Node (Noisy W)) (hm : m.sendCount ≠ 255) :
        Node.awaitAck.run m = .ok ((), { m with
          world := (Clock.now m.world).2
          sendCount := m.sendCount + 1
          sendTime := (Clock.now m.world).1 }) := by
      refine run_eq_ok ?_
      simp only [Node.awaitAck, outcome_bind, outcome_get, hm, if_false, outcome_set,
        outcome_readClock, outcome_modify, and_self]
    exact .step (hrun n hc) (hrun (n.veiled noise received) hc) h

omit [SignalSource W] in
theorem sendHead_follows (hn : n.Untraced) : Follows sendHead n noise received := by
  unfold sendHead
  refine .get rfl ?_
  split
  · exact .pure ()
  · rename_i p _
    refine .transmit fun quiet => ?_
    dsimp only
    generalize (if n.lastSend = true then p.header.withoutAck else p.header) = header
    split
    · refine .awaitAck (follows_notes ?_ .sent)
      exact hn
    · refine .step rfl rfl (follows_notes ?_ .sent)
      exact hn

omit [Clock W] in
theorem acceptData_follows (hn : n.Untraced) (header : Header) :
    Follows (acceptData header) n noise n.received := by
  have close {m : Node (Noisy W)} (hm : m.Untraced) : Follows (do
      let module? := (← get).received.module?
      note .received
      noteCode (traceDigit (module?.getD 0))
      noteDepth
      return module?) m noise m.received := by
    refine .get rfl ?_
    refine .silent (fun k hk => noteCode_run hk _) hm ?_
    refine .silent (fun k hk => noteCode_run hk _) hm ?_
    exact .silent (fun k hk => noteDepth_run hk) hm (.pure _)
  unfold acceptData
  refine .step rfl rfl ?_
  dsimp only
  split
  · exact .step rfl rfl (close hn)
  · exact close hn

omit [Clock W] in
theorem acceptAck_follows (hn : n.Untraced) (header : Header) :
    Follows (acceptAck header) n noise n.received := by
  unfold acceptAck
  refine .get rfl ?_
  dsimp only
  split
  · refine .step rfl rfl (.step rfl rfl (.step rfl rfl (follows_notes ?_ .acked)))
    exact hn
  · exact follows_notes hn .strayAck

omit [Clock W] in
theorem acceptFrame_follows (hn : n.Untraced) : Follows acceptFrame n noise n.received := by
  unfold acceptFrame
  refine .get rfl ?_
  dsimp only
  split
  · exact .pure none
  split
  · exact acceptData_follows hn _
  split
  · exact .silent (fun k hk => noteCode_run hk _) hn (.pure none)
  · exact (acceptAck_follows hn _).bind fun _ _ _ _ _ _ => .pure none

omit [Clock W] in
theorem accept_irrelevant {r : Reception} (hn : n.Untraced) (hr : n.Irrelevant r)
    (hrec : ∀ p, r = .frame p → n.received = p) : (accept r).run n = .ok (none, n) := by
  have noted {x : NodeM (Noisy W) Unit} (hx : x.run n = .ok ((), n)) :
      (do x; return (none : Option UInt8)).run n = .ok (none, n) := by
    rw [StateT.run_bind, hx]
    rfl
  cases r with
  | nothing => rfl
  | badChecksum => exact noted (noteCode_run hn _)
  | frame p =>
    obtain rfl := hrec p rfl
    have hforeign : (n.received.header.directed &&
        n.received.header.node != n.identity.node.number) = true ↔
        n.Foreign n.received.header := by simp [Foreign]
    simp only [accept, acceptFrame]
    change StateT.run (if (n.received.header.directed &&
      n.received.header.node != n.identity.node.number) = true then _ else _) n = _
    simp only [hforeign]
    split
    · rfl
    · rename_i hf
      obtain ⟨hc, hr⟩ := hr.resolve_left hf
      rw [hc, Bool.not_true, if_neg Bool.false_ne_true]
      split
      · exact noted (noteCode_run hn _)
      · rename_i hw
        refine noted ?_
        have hno : ¬ (n.received.header.node = n.identity.node.number ∧ !n.queue.isEmpty ∧
            0 < n.sendCount) := by
          rintro ⟨hnode, -, hpos⟩
          rcases hr with hr | hr | hr
          · exact hw hr
          · exact hr hnode
          · simp [hr] at hpos
        unfold acceptAck
        change StateT.run (if _ then _ else _) n = _
        rw [if_neg hno, StateT.run_bind, note, noteCode_run hn]
        exact noteDepth_run hn

def Harmless (n : Node (Noisy W)) : Prop :=
  n.enabled = true → (Medium.receive n.world.quiet).1 = .nothing →
    ∀ r ∈ n.world.noise.head?, n.Irrelevant r

instance (n : Node (Noisy W)) : Decidable (Harmless n) := inferInstanceAs (Decidable (_ → _))

omit [Clock W] in
/-- Asking for a frame and looking at what came. Where the quiet one has nothing and goes on, the
other one may have noise, takes no notice of it, and goes on as well. -/
theorem listen_follows (hn : n.Untraced) (hq : n.world.noise = [])
    (he : n.enabled = true) (hh : Harmless (n.veiled noise received)) :
    Follows (do accept (← receive)) n noise received := by
  have hear (m : Node (Noisy W)) {r : Reception} {w : Noisy W}
      (hr : Medium.receive m.world = (r, w)) :
      receive.run m = .ok (r, { m with world := w, received := r.into m.received }) := by
    refine run_eq_ok ?_
    rw [outcome_receive, hr]
    exact ⟨rfl, rfl⟩
  have hquiet := hear n (Noisy.receive_quiet hq)
  by_cases hnoise : (Medium.receive n.world.quiet).1 = .nothing ∧ noise ≠ []
  · obtain ⟨hnothing, hne⟩ := hnoise
    obtain ⟨r, rest, rfl⟩ := List.exists_cons_of_ne_nil hne
    have hnoisy := hear (n.veiled (r :: rest) received) (Noisy.receive_noise hnothing rfl)
    have hirrelevant : (n.veiled (r :: rest) received).Irrelevant r := hh he hnothing r rfl
    let m : Node (Noisy W) := { n with world := ⟨(Medium.receive n.world.quiet).2, []⟩ }
    have haccept := accept_irrelevant (n := m.veiled rest (r.into received)) hn hirrelevant
      (by rintro p rfl; rfl)
    have hrun : (do accept (← receive)).run n = .ok (none, m) := by
      rw [StateT.run_bind, hquiet, hnothing]
      rfl
    have hrun' : (do accept (← receive)).run (n.veiled (r :: rest) received) =
        .ok (none, m.veiled rest (r.into received)) := by
      rw [StateT.run_bind, hnoisy]
      exact haccept
    unfold Follows
    rw [hrun, hrun']
    exact .ok none m rest (r.into received)
  · have hnoisy : Medium.receive (n.veiled noise received).world =
        ((Medium.receive n.world.quiet).1, ⟨(Medium.receive n.world.quiet).2, noise⟩) := by
      by_cases hnothing : (Medium.receive n.world.quiet).1 = .nothing
      · obtain rfl : noise = [] := Classical.not_not.1 fun hne => hnoise ⟨hnothing, hne⟩
        exact Noisy.receive_quiet rfl
      · exact Noisy.receive_heard hnothing
    refine .step hquiet (hear (n.veiled noise received) hnoisy) ?_
    generalize (Medium.receive n.world.quiet).1 = r
    cases r with
    | nothing => exact .pure none
    | badChecksum => exact .silent (fun m hm => noteCode_run hm _) hn (.pure none)
    | frame p => exact acceptFrame_follows hn

omit [SignalSource W] in
theorem resend_follows (hn : n.Untraced) : Follows resend n noise received := by
  unfold resend
  refine .get rfl ?_
  split
  · exact .pure ()
  split
  · refine .canSend ?_
    split
    · exact sendHead_follows hn
    · exact .pure ()
  · refine .step rfl rfl (.lift fun deadline => ?_)
    split
    · refine .canSend ?_
      split
      · refine .silent (fun m hm => noteCode_run hm _) hn ?_
        refine .silent (fun m hm => noteDepth_run hm) hn ?_
        exact sendHead_follows hn
      · exact .pure ()
    · exact .pure ()

omit [SignalSource W] in
theorem startTransmission_follows (hn : n.Untraced) :
    Follows startTransmission n noise received := by
  unfold startTransmission
  refine .get rfl ?_
  split
  · exact resend_follows hn
  · refine .canSend ?_
    split
    · unfold sendAck
      refine .step rfl rfl ?_
      rw [← bind_pure (Node.transmit _)]
      exact .transmit fun quiet => .pure ()
    · exact resend_follows hn

structure Undisturbed (n : Node (Noisy W)) : Prop where
  sound : n.Sound
  untraced : n.Untraced
  noiseless : n.world.noise = []

omit [SignalSource W] in
theorem respects_noiseless :
    Respects (fun _ => True) (fun r r' : Noisy W => r.noise = [] → r'.noise = []) where
  refl _ := id
  trans h h' := h' ∘ h
  configure _ _ _ := id
  canSend _ := id
  transmit {w w' t} _ ht := by
    intro hq
    cases hw : Medium.transmit w.quiet t with
    | error e => simp [Medium.transmit, hw, bind, Except.bind] at ht
    | ok quiet =>
      simp only [Medium.transmit, hw, bind, Except.bind, pure, Except.pure,
        Except.ok.injEq] at ht
      exact ht ▸ hq
  noted _ _ := id
  now _ := id
  pause _ := id

theorem Undisturbed.moves {m : Node (Noisy W)} (h : n.Undisturbed) (hm : Moves n m) :
    m.Undisturbed := by
  induction hm with
  | refl => exact h
  | tail _ hm ih =>
    refine ⟨ih.sound.move hm, ih.untraced.move hm, ?_⟩
    refine respects_noiseless.move trivial trivial (fun r hq => ?_) (fun _ => id) (.inl trivial)
      hm ih.noiseless
    rw [Noisy.receive_quiet hq]

theorem poll_follows (hn : n.Undisturbed) (hh : Harmless (n.veiled noise received)) :
    Follows poll n noise received := by
  unfold poll
  refine .get rfl ?_
  split <;> rename_i he
  · refine .silent (fun m hm => shipTrace_run hm false) hn.untraced ?_
    rw [← bind_assoc]
    refine (listen_follows hn.untraced hn.noiseless he hh).bind fun d m _ _ hr _ => ?_
    have hm : m.Undisturbed := hn.moves ((accept_travels .refl).of_run_eq hr).1
    exact (startTransmission_follows hm.untraced).bind fun _ _ _ _ _ _ => .pure d
  · exact .pure none

def HarmlessWithin : Nat → Node (Noisy W) → Prop
  | 0, n => n.busy = true → Harmless n
  | allowance + 1, n => n.busy = true → Harmless n ∧
    match poll.run n with
    | .ok (none, m) => HarmlessWithin allowance { m with world := Clock.pause m.world }
    | _ => True

instance decidableHarmlessWithin : (allowance : Nat) → (n : Node (Noisy W)) →
    Decidable (HarmlessWithin allowance n)
  | 0, n => inferInstanceAs (Decidable (n.busy = true → Harmless n))
  | allowance + 1, n =>
    have : Decidable (match poll.run n with
        | .ok (none, m) => HarmlessWithin allowance { m with world := Clock.pause m.world }
        | _ => True) :=
      match poll.run n with
      | .ok (none, _) => decidableHarmlessWithin allowance _
      | .ok (some _, _) | .error _ => .isTrue trivial
    inferInstanceAs (Decidable (n.busy = true → Harmless n ∧ _))

/-- All noise that comes in during a command is harmless. -/
def HarmlessIn (n : Node (Noisy W)) : Command → Prop
  | .poll => Harmless n
  | .flush allowance => if n.busy then HarmlessWithin allowance n else Harmless n
  | _ => True

instance (n : Node (Noisy W)) : DecidablePred n.HarmlessIn
  | .poll => inferInstanceAs (Decidable (Harmless n))
  | .flush allowance =>
    inferInstanceAs (Decidable (if n.busy = true then HarmlessWithin allowance n else Harmless n))
  | .allocate _ | .send _ _ | .broadcast _ | .sendRaw _ _ | .shipTrace _ | .initRadio _ =>
    .isTrue trivial

def HarmlessAll : List Command → Node (Noisy W) → Prop
  | [], _ => True
  | c :: cs, n => HarmlessIn n c ∧
    match (perform c).run n with
    | .ok (_, m) => HarmlessAll cs m
    | .error _ => True

instance decidableHarmlessAll : (cs : List Command) → (n : Node (Noisy W)) →
    Decidable (HarmlessAll cs n)
  | [], _ => .isTrue trivial
  | c :: cs, n =>
    have : Decidable (match (perform c).run n with
        | .ok (_, m) => HarmlessAll cs m
        | .error _ => True) :=
      match (perform c).run n with
      | .ok (_, m) => decidableHarmlessAll cs m
      | .error _ => .isTrue trivial
    inferInstanceAs (Decidable (HarmlessIn n c ∧ _))

theorem continueFlush_follows (hn : n.Undisturbed)
    (hh : n.busy = true → Harmless (n.veiled noise received)) :
    Follows continueFlush n noise received := by
  unfold continueFlush
  refine .get rfl ?_
  split <;> rename_i hbusy
  · refine (poll_follows hn (hh hbusy)).bind fun delivered m _ _ _ _ => ?_
    cases delivered <;> exact .pure _
  · exact .pure _

theorem flushWithin_follows (allowance : Nat) (hn : n.Undisturbed)
    (hh : HarmlessWithin allowance (n.veiled noise received)) :
    Follows (flushWithin allowance) n noise received := by
  induction allowance generalizing n noise received with
  | zero =>
    refine (continueFlush_follows hn hh).bind fun result m _ _ _ _ => ?_
    cases result <;> exact .pure _
  | succ allowance ih =>
    refine (continueFlush_follows hn fun hb => (hh hb).1).bind fun result m _ _ hr hr' => ?_
    have hm : m.Undisturbed := hn.moves ((continueFlush_travels .refl).of_run_eq hr).1
    cases result with
    | some => exact .pure _
    | none =>
      refine .step rfl rfl (ih (hm.moves (.single (.pause m))) ?_)
      rcases continueFlush_run hr' with ⟨-, hsome, -⟩ | ⟨hbusy, m?, hpoll, hnone⟩
      · cases hsome
      · obtain rfl : m? = none := Option.map_eq_none_iff.1 hnone.symm
        have hrest := (hh hbusy).2
        rw [hpoll] at hrest
        exact hrest

theorem flush_follows (allowance : Nat) (hn : n.Undisturbed)
    (hh : HarmlessIn (n.veiled noise received) (.flush allowance)) :
    Follows (flush allowance) n noise received := by
  have hbusy : (n.veiled noise received).busy = n.busy := rfl
  unfold flush
  refine .get rfl ?_
  simp only [HarmlessIn, hbusy] at hh
  split at hh <;> rename_i hb
  · rw [if_pos hb]
    exact flushWithin_follows allowance hn hh
  · rw [if_neg hb]
    exact (poll_follows hn hh).bind fun _ _ _ _ _ _ => .pure _

omit [SignalSource W] in
theorem sendRaw_follows (hn : n.Untraced) (length : UInt8) (header : Header) :
    Follows (sendRaw length header) n noise received := by
  unfold sendRaw
  refine .get_run ?_
  simp only [veiled_enabled, veiled_queue]
  split
  · split
    · exact .ok _ n noise received
    · refine .step rfl rfl ?_
      refine Follows.silent (fun m hm => noteCode_run hm _) hn (.get rfl ?_)
      split
      · refine .canSend ?_
        split
        · refine (sendHead_follows ?_).bind fun _ _ _ _ _ _ => .pure _
          exact hn
        · exact .silent (fun m hm => noteCode_run hm _) hn (.pure _)
      · exact .pure _
  · exact .ok _ n noise received

theorem perform_follows (c : Command) (hn : n.Undisturbed)
    (hh : HarmlessIn (n.veiled noise received) c) : Follows (perform c) n noise received := by
  have answer {β : Type} {x : NodeM (Noisy W) β} {f : β → Answer}
      (hx : Follows x n noise received) : Follows (do return f (← x)) n noise received :=
    hx.bind fun _ _ _ _ _ _ => .pure _
  have hoff := hn.untraced
  cases c with
  | allocate change =>
    refine answer (.get_run ?_)
    cases he : n.enabled with
    | true =>
      simp only [veiled_enabled, veiled_queue, he, if_true]
      exact .ok _ _ noise received
    | false =>
      simp only [veiled_enabled, he, Bool.false_eq_true, if_false]
      exact .ok _ n noise received
  | send length ack => exact answer (.get rfl (sendRaw_follows hoff _ _))
  | broadcast length => exact answer (.get rfl (sendRaw_follows hoff _ _))
  | sendRaw length header => exact answer (sendRaw_follows hoff _ _)
  | poll => exact answer (poll_follows hn hh)
  | flush allowance => exact answer (flush_follows allowance hn hh)
  | shipTrace force => exact .silent (fun m hm => shipTrace_run hm force) hoff (.pure _)
  | initRadio mode =>
    refine answer (f := fun _ => .done) (.get_run ?_)
    cases he : n.enabled with
    | true =>
      simp only [veiled_enabled, he, if_true]
      refine .step rfl rfl (follows_note ?_ _)
      exact hoff
    | false =>
      simp only [veiled_enabled, he, Bool.false_eq_true, if_false]
      exact .ok _ n noise received

theorem Undisturbed.perform {c : Command} {a : Answer} {m : Node (Noisy W)}
    (h : n.Undisturbed) (hr : (perform c).run n = .ok (a, m)) : m.Undisturbed := by
  obtain ⟨k, he, hm⟩ := (perform_outcome c h.sound.count_zero).of_run_eq hr
  obtain ⟨hw, ht, -⟩ := he.keeps
  refine Undisturbed.moves ⟨h.sound.enters he, ?_, ?_⟩ hm
  · rw [Untraced, ht]
    exact h.untraced
  · rw [hw]
    exact h.noiseless

theorem performAll_follows (cs : List Command) (hn : n.Undisturbed)
    (hh : HarmlessAll cs (n.veiled noise received)) : Follows (performAll cs) n noise received := by
  induction cs generalizing n noise received with
  | nil => exact .pure []
  | cons c cs ih =>
    refine (perform_follows c hn hh.1).bind fun a m _ _ hr hr' => ?_
    have hrest := hh.2
    rw [hr'] at hrest
    exact (ih (hn.perform hr) hrest).bind fun _ _ _ _ _ _ => .pure _

/-- Take a node as it is after any run with the log off. Whatever it is told to do from there on, it
answers the same and ends the same with harmless noise as without, but for the receive buffer. All
its dealings with the surroundings, which are on record, are the same too. -/
theorem Execution.takes_no_notice {w : W} {identity : Identity} {settings : Settings}
    {capacity : Nat} {turns : List (Turn W)} {n : Node (Recorded W)}
    (run : Execution (startRecorded w identity settings capacity) turns n)
    (untraced : settings.trace = false) (cs : List Command) (noise : List Reception)
    (harmless : HarmlessAll cs (n.amid noise)) :
    Alike ((performAll cs).run (n.amid [])) ((performAll cs).run (n.amid noise)) := by
  have hs : (startRecorded w identity settings capacity).Sound := .start ..
  have hn : n.Sound := run.sound hs
  have hoff : n.Untraced := run.keeps (I := fun _ n => n.Untraced) hs ⟨untraced, rfl⟩
    (fun _ h he => by rwa [Untraced, he.keeps.2.1]) (fun _ h hm => h.move hm) fun _ h => h
  have hq : (n.amid []).Undisturbed := ⟨⟨hn.fits, hn.notes, hn.awaiting⟩, hoff, rfl⟩
  have hharmless : HarmlessAll cs ((n.amid []).veiled noise n.received) := harmless
  exact performAll_follows cs hq hharmless

def strayFrames : List Reception :=
  [.badChecksum, .frame { header := ⟨0x85⟩ }, .frame { header := ⟨0x43⟩ },
    .frame { header := ⟨0x61⟩ }]

theorem takes_no_notice_of_stray_frames : ∃ r,
    play (benchStart {}) [.command (.send 1 true)] = some r ∧
      ((performAll [.poll, .flush 2]).run (r.2.amid strayFrames)).toOption.any
        (fun q => q.2.received.header = ⟨0x61⟩ ∧ q.2.sendCount = 1) = true ∧
      Alike ((performAll [.poll, .flush 2]).run (r.2.amid []))
        ((performAll [.poll, .flush 2]).run (r.2.amid strayFrames)) := by
  have hrun : (play (benchStart {}) [.command (.send 1 true)]).any (fun r =>
      HarmlessAll [.poll, .flush 2] (r.2.amid strayFrames) ∧
      ((performAll [.poll, .flush 2]).run (r.2.amid strayFrames)).toOption.any
        (fun q => q.2.received.header = ⟨0x61⟩ ∧ q.2.sendCount = 1) = true) = true := by
    decide +kernel
  obtain ⟨r, hr, hd⟩ := (Option.any_eq_true ..).1 hrun
  obtain ⟨hharmless, hend⟩ := of_decide_eq_true hd
  exact ⟨r, hr, hend, (Execution.of_play hr).takes_no_notice rfl _ _ hharmless⟩

end Node

end StarNet
