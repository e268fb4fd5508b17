import StarNet.Proofs.Node.Travel

/-!
What a node does to its surroundings. A relation that holds across every single dealing with them
holds across every errand and every move. With the trace log off, nothing is ever sent for it.
-/
namespace StarNet.Node

def Untraced {W : Type} (n : Node W) : Prop := n.trace.enabled = false ∧ n.trace.notes = []

theorem Untraced.in_world {W : Type} {n : Node W} (h : n.Untraced) (w : W) :
    Untraced { n with world := w } := h

theorem push_of_disabled {t : TraceLog} (h : t.enabled = false) (code : UInt8) :
    t.push code = t := by
  simp [TraceLog.push, h]

theorem Untraced.nearlyFull_push {W : Type} {n : Node W} (h : n.Untraced) (code : UInt8) :
    (n.trace.push code).nearlyFull = false := by
  rw [push_of_disabled h.1, TraceLog.nearlyFull, h.2]
  decide

theorem Untraced.pending? {W : Type} {n : Node W} (h : n.Untraced) (force : Bool) :
    n.trace.pending? force = none := by
  cases force <;> simp [TraceLog.pending?, h.2, TraceLog.capacity]

theorem shipTrace_run {W : Type} [Medium W] {n : Node W} (h : n.Untraced) (force : Bool) :
    (shipTrace force).run n = .ok ((), n) := by
  refine run_eq_ok ?_
  simp only [shipTrace, outcome_bind, outcome_get, h.pending?, outcome_pure, and_self]

theorem noteCode_untraced {W : Type} [Medium W] {n : Node W} (h : n.Untraced) (code : UInt8) :
    (noteCode code).run n = .ok ((), { n with world := Medium.noted n.world code }) := by
  refine run_eq_ok ?_
  have hfull := h.nearlyFull_push code
  rw [push_of_disabled h.1] at hfull
  simp only [noteCode, outcome_bind, outcome_modify, outcome_get, push_of_disabled h.1, hfull,
    Bool.false_eq_true, if_false, outcome_pure, and_self]

variable {W : Type} [Medium W] [Clock W] [SignalSource W] {n n' : Node W}
  {allowed : Purpose → Prop} {R : W → W → Prop}

/-- A relation that holds across every dealing but hearing, if all that is sent is sent for allowed
purposes. -/
structure Respects (allowed : Purpose → Prop) (R : W → W → Prop) : Prop where
  refl : ∀ w, R w w
  trans : ∀ {u v w}, R u v → R v w → R u w
  configure : ∀ w identity mode, R w (Medium.configure w identity mode)
  canSend : ∀ w, R w (Medium.canSend w).2
  transmit : ∀ {w w' t}, allowed t.purpose → Medium.transmit w t = .ok w' → R w w'
  noted : ∀ w code, R w (Medium.noted w code)
  now : ∀ w, R w (Clock.now w).2
  pause : ∀ w, R w (Clock.pause w)

def MayLog {W : Type} (allowed : Purpose → Prop) (n : Node W) : Prop :=
  allowed .trace ∨ n.Untraced

omit [Medium W] [Clock W] [SignalSource W] in
theorem MayLog.in_world (h : MayLog allowed n) (w : W) : MayLog allowed { n with world := w } := h

omit [Clock W] [SignalSource W] in
theorem Untraced.noting {code : UInt8} (h : n.Untraced) (hn : Noting code n n') :
    n'.Untraced := by
  cases hn with
  | kept => exact (push_of_disabled h.1 code).symm ▸ h
  | held => exact (push_of_disabled h.1 code).symm ▸ h
  | shipped _ hfull => simp [h.nearlyFull_push] at hfull

omit [SignalSource W] in
theorem Untraced.launch (h : n.Untraced) (hl : Launch n n') : n'.Untraced := by
  cases hl <;> exact h

omit [SignalSource W] in
theorem Untraced.errand (h : n.Untraced) (he : Errand n n') : n'.Untraced := by
  cases he with
  | note code hn => exact h.noting hn
  | ship force payload w hp => simp [h.pending?] at hp
  | first _ _ hl => exact (h.in_world _).launch hl
  | again deadline _ _ _ _ h₁ h₂ hl =>
    exact (((h.in_world _).noting h₁).noting h₂).launch hl
  | _ => exact h

omit [SignalSource W] in
theorem Untraced.errands (h : n.Untraced) (he : Errands n n') : n'.Untraced := by
  induction he with
  | refl => exact h
  | tail _ he ih => exact ih.errand he

omit [SignalSource W] in
theorem Untraced.starts (h : n.Untraced) (hs : Starts n n') : n'.Untraced := by
  cases hs with
  | unowing _ hr => exact h.errands hr.errands
  | answer => exact h
  | refused _ _ _ hr => exact (h.in_world _).errands hr.errands

omit [Clock W] in
theorem Untraced.hears {delivered : Option UInt8} (h : n.Untraced)
    (hh : Hears n delivered n') : n'.Untraced := by
  cases hh <;> exact h

omit [SignalSource W] in
theorem Respects.noting {code : UInt8} (hR : Respects allowed R) (ht : MayLog allowed n)
    (hn : Noting code n n') : R n.world n'.world := by
  have hnoted := hR.noted n.world code
  cases hn with
  | kept => exact hnoted
  | held => exact hR.trans hnoted (hR.canSend _)
  | shipped w hfull _ hw =>
    rcases ht with ht | ht
    · exact hR.trans (hR.trans hnoted (hR.canSend _)) (hR.transmit ht hw)
    · simp [ht.nearlyFull_push] at hfull

omit [SignalSource W] in
theorem Respects.launch (hR : Respects allowed R) (hd : allowed .data) (hl : Launch n n') :
    R n.world n'.world := by
  cases hl with
  | await p w _ _ _ hw => exact hR.trans (hR.transmit hd hw) (hR.now w)
  | depart p w _ _ hw => exact hR.transmit hd hw

omit [SignalSource W] in
theorem Respects.errand (hR : Respects allowed R) (hd : allowed .data) (ht : MayLog allowed n)
    (he : Errand n n') : R n.world n'.world := by
  have hask := hR.canSend n.world
  cases he with
  | configure mode => exact hR.configure ..
  | note code hn => exact hR.noting ht hn
  | refuse => exact hask
  | read => exact hR.now _
  | ship force payload w hp _ hw =>
    rcases ht with ht | ht
    · exact hR.trans hask (hR.transmit ht hw)
    · simp [ht.pending?] at hp
  | first _ _ hl => exact hR.trans hask (hR.launch hd hl)
  | again deadline _ _ _ _ h₁ h₂ hl =>
    have hasked := hR.trans (hR.now n.world) (hR.canSend _)
    have hnoted := hR.noting (ht.in_world _) h₁
    have hdepth := hR.noting (ht.imp_right fun h => (h.in_world _).noting h₁) h₂
    exact hR.trans (hR.trans (hR.trans hasked hnoted) hdepth) (hR.launch hd hl)

omit [SignalSource W] in
theorem Respects.errands (hR : Respects allowed R) (hd : allowed .data) (ht : MayLog allowed n)
    (he : Errands n n') : R n.world n'.world := by
  induction he with
  | refl => exact hR.refl _
  | tail hes he ih =>
    exact hR.trans ih (hR.errand hd (ht.imp_right fun h => h.errands hes) he)

omit [SignalSource W] in
theorem Respects.starts (hR : Respects allowed R) (hd : allowed .data) (ha : allowed .ack)
    (ht : MayLog allowed n) (hs : Starts n n') : R n.world n'.world := by
  have hask := hR.canSend n.world
  cases hs with
  | unowing _ hr => exact hR.errands hd ht hr.errands
  | answer ack w _ _ hw => exact hR.trans hask (hR.transmit ha hw)
  | refused _ _ _ hr =>
    exact hR.trans hask (hR.errands hd (ht.in_world _) hr.errands)

theorem Respects.hears {delivered : Option UInt8} (hR : Respects allowed R)
    (hreceive : ∀ w, R w (Medium.receive w).2) (hsample : ∀ w, R w (SignalSource.sample w).2)
    (hh : Hears n delivered n') : R n.world n'.world := by
  have hheard := hreceive n.world
  cases hh with
  | ignore r w hr =>
    rw [hr] at hheard
    exact hheard
  | deliver p w hr =>
    rw [hr] at hheard
    exact hR.trans hheard (hsample w)
  | settle p w hr =>
    rw [hr] at hheard
    exact hR.trans hheard (hsample w)

theorem Untraced.move (h : n.Untraced) (hm : Move n n') : n'.Untraced := by
  rcases hm.stage with he | ⟨delivered, hh⟩ | hs | rfl
  · exact h.errand he
  · exact h.hears hh
  · exact h.starts hs
  · exact h

theorem Respects.move (hR : Respects allowed R) (hd : allowed .data) (ha : allowed .ack)
    (hreceive : ∀ w, R w (Medium.receive w).2) (hsample : ∀ w, R w (SignalSource.sample w).2)
    (ht : MayLog allowed n) (hm : Move n n') : R n.world n'.world := by
  rcases hm.stage with he | ⟨delivered, hh⟩ | hs | rfl
  · exact hR.errand hd ht he
  · exact hR.hears hreceive hsample hh
  · exact hR.starts hd ha ht hs
  · exact hR.pause _

end StarNet.Node
