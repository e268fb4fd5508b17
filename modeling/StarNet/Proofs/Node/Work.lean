import StarNet.Proofs.Node.Drained
import StarNet.Proofs.Node.Spacing

/-!
The work a node has before it. In surroundings that stay free and whose clock goes on, every poll of
a busy node does some of it: it answers, sends, or waits for a retry. Only a frame that comes in may
add to it, and adds no more than the answer it asks for.
-/
namespace StarNet.Node

variable {W : Type}

def sendsLeft (n : Node W) : Nat :=
  n.queue.count * max 1 n.settings.maxSends.toNat - n.sendCount.toNat

theorem Sound.sendCount_lt {n : Node W} (h : n.Sound) :
    n.sendCount.toNat < max 1 n.settings.maxSends.toNat := by
  rcases h.awaiting with hz | ⟨p, -, -, hlt⟩
  · rw [hz]
    exact Nat.lt_of_lt_of_le Nat.zero_lt_one (Nat.le_max_left ..)
  · exact Nat.lt_of_lt_of_le hlt (Nat.le_max_right ..)

theorem sendsLeft_of_pop {n m : Node W} {p : Packet} (hs : n.Sound)
    (hp : n.queue.head? = some p) (hq : m.queue = n.queue.pop) (hc : m.sendCount = 0)
    (hset : m.settings = n.settings) : m.sendsLeft + 1 ≤ n.sendsLeft := by
  have hlt := hs.sendCount_lt
  unfold sendsLeft
  rw [hq, hc, hset, Queue.count_of_head hp, Nat.add_mul, Nat.one_mul, UInt8.toNat_zero]
  omega

theorem Noted.busy {n n' : Node W} (h : n.Noted n') : n'.busy = n.busy := by
  obtain ⟨w, t, rfl⟩ := h
  rfl

def clockOf [Clock W] (w : W) : Nat := (Clock.now w).1.toNat

/-- Whatever is done within `P` stays there and does not turn back the clock. -/
def Onward [Clock W] (P : W → Prop) (w w' : W) : Prop := P w → P w' ∧ clockOf w ≤ clockOf w'

/-- Surroundings that a node does not leave, in which its medium is always free, and whose clock
goes on with every pause up to its last tick. -/
structure Obliging [Medium W] [Clock W] [SignalSource W] (P : W → Prop) : Prop where
  onward : Respects (fun _ => True) (Onward P)
  receive : ∀ w, Onward P w (Medium.receive w).2
  sample : ∀ w, Onward P w (SignalSource.sample w).2
  enabled : ∀ w, P w → Medium.enabled w = true
  free : ∀ w, P w → (Medium.canSend w).1 = true
  advances : ∀ w, P w → clockOf w + 1 < UInt64.size → clockOf w < clockOf (Clock.pause w)

section Work

variable [Clock W] {P : W → Prop} {n m : Node W}

def retryWait (n : Node W) : Nat :=
  if n.sendCount = 0 then 0
  else n.sendTime.toNat + n.settings.retryInterval.toNat - clockOf n.world

/-- How many polls it may take to empty the queue, with a tick at least between them. -/
def queueWork (n : Node W) : Nat :=
  n.sendsLeft * max 1 n.settings.retryInterval.toNat + n.retryWait

/-- The same until nothing is left to send, with the acknowledgement that is owed. -/
def work (n : Node W) : Nat := n.pendingAck.toList.length + n.queueWork

/-- The surroundings are within `P`, and a packet under way was sent by now. -/
structure Underway (P : W → Prop) (n : Node W) : Prop where
  within : P n.world
  timed : 0 < n.sendCount → n.sendTime.toNat ≤ clockOf n.world

theorem Underway.frame (h : Underway P n) (hw : Onward P n.world m.world)
    (hq : m.queue = n.queue) (hc : m.sendCount = n.sendCount) (ht : m.sendTime = n.sendTime)
    (hs : m.settings = n.settings) : Underway P m ∧ m.queueWork ≤ n.queueWork := by
  obtain ⟨hwithin, hclock⟩ := hw h.within
  refine ⟨⟨hwithin, fun hpos => ?_⟩, ?_⟩
  · rw [ht]
    exact Nat.le_trans (h.timed (hc ▸ hpos)) hclock
  · have hwait : m.retryWait ≤ n.retryWait := by
      unfold retryWait
      rw [hc, ht, hs]
      split
      · exact Nat.le_refl 0
      · exact Nat.sub_le_sub_left hclock _
    unfold queueWork sendsLeft
    rw [hq, hc, hs]
    exact Nat.add_le_add_left hwait _

theorem Underway.noted (h : Underway P n) (hn : n.Noted m) (hw : Onward P n.world m.world) :
    Underway P m ∧ m.queueWork ≤ n.queueWork ∧ m.work ≤ n.work := by
  obtain ⟨w, t, rfl⟩ := hn
  obtain ⟨hu, hwork⟩ := h.frame (m := { n with world := w, trace := t }) hw rfl rfl rfl rfl
  exact ⟨hu, hwork, Nat.add_le_add_left hwork _⟩

theorem work_of_owing {ack : PendingAck} (h : n.pendingAck = some ack) :
    n.work = 1 + n.queueWork := by
  rw [work, h]
  rfl

theorem work_of_unowing (h : n.pendingAck = none) : n.work = n.queueWork := by
  rw [work, h]
  exact Nat.zero_add _

theorem queueWork_of_pop {p : Packet} (hs : n.Sound) (hp : n.queue.head? = some p)
    (hq : m.queue = n.queue.pop) (hc : m.sendCount = 0) (hset : m.settings = n.settings) :
    m.queueWork ≤ n.queueWork := by
  have hwait : m.retryWait = 0 := if_pos hc
  rw [queueWork, hset, hwait]
  exact Nat.le_trans (Nat.mul_le_mul_right _ (Nat.le_of_succ_le
    (sendsLeft_of_pop hs hp hq hc hset))) (Nat.le_add_right ..)

theorem work_pos (hs : n.Sound) (hbusy : n.busy = true) : 0 < n.work := by
  cases hack : n.pendingAck with
  | some ack =>
    rw [work_of_owing hack]
    exact Nat.add_pos_left Nat.one_pos _
  | none =>
    have hqueue : n.queue.isEmpty = false := by simpa [busy, hack] using hbusy
    obtain ⟨p, hp⟩ := Queue.exists_head hqueue
    have hleft : 0 < n.sendsLeft := Nat.lt_of_lt_of_le (Nat.succ_pos _)
      (sendsLeft_of_pop (m := { n with queue := n.queue.pop, sendCount := 0 }) hs hp rfl rfl rfl)
    have hinterval : 0 < max 1 n.settings.retryInterval.toNat :=
      Nat.lt_of_lt_of_le Nat.one_pos (Nat.le_max_left ..)
    rw [work_of_unowing hack, queueWork]
    exact Nat.add_pos_left (Nat.mul_pos hleft hinterval) _

end Work

section Stages

variable [Medium W] [Clock W] [SignalSource W] {P : W → Prop} {n n' : Node W}

theorem Obliging.pause_ticks (hP : Obliging P) {w : W} (hw : P w) :
    clockOf w < clockOf (Clock.pause w) ∨ UInt64.size ≤ clockOf (Clock.pause w) + 1 := by
  by_cases hlast : clockOf w + 1 < UInt64.size
  · exact .inl (hP.advances w hw hlast)
  · have hback := (hP.onward.pause w hw).2
    exact .inr (by omega)

theorem Underway.pause (hP : Obliging P) (h : Underway P n) : Underway P n.paused ∧
    n.paused.queueWork ≤ n.queueWork ∧ n.paused.work ≤ n.work :=
  h.noted ⟨Clock.pause n.world, n.trace, rfl⟩ (hP.onward.pause n.world)

theorem Underway.retryWait_paused (hP : Obliging P) (h : Underway P n)
    (hrange : clockOf n.paused.world + n.settings.retryInterval.toNat < UInt64.size) :
    n.paused.retryWait + 1 ≤ max 1 n.settings.retryInterval.toNat := by
  have hticks : clockOf n.world < clockOf n.paused.world ∨
      UInt64.size ≤ clockOf n.paused.world + 1 := hP.pause_ticks h.within
  have hback : clockOf n.world ≤ clockOf n.paused.world := (hP.onward.pause n.world h.within).2
  by_cases hzero : n.sendCount = 0
  · rw [retryWait, if_pos hzero]
    exact Nat.le_max_left ..
  · have htimed := h.timed (UInt8.pos_iff_ne_zero.2 hzero)
    rw [retryWait, if_neg hzero]
    show n.sendTime.toNat + n.settings.retryInterval.toNat - clockOf n.paused.world + 1 ≤ _
    omega

theorem Underway.launch (hP : Obliging P) (hs : n.Sound) (h : Underway P n) (hl : Launch n n') :
    Underway P n' ∧ n'.pendingAck = n.pendingAck ∧ n'.settings = n.settings ∧
      n'.sendsLeft + 1 ≤ n.sendsLeft := by
  cases hl with
  | await p w hp ha hlast ht =>
    obtain ⟨hw, -⟩ := hP.onward.transmit trivial ht h.within
    obtain ⟨hnow, hclock⟩ := hP.onward.now w hw
    refine ⟨⟨hnow, fun _ => hclock⟩, rfl, rfl, ?_⟩
    have hlt := lt_maxSends_of_lastSend hlast
    have hcount := Queue.count_of_head hp
    show n.queue.count * max 1 n.settings.maxSends.toNat - (n.sendCount + 1).toNat + 1 ≤
      n.queue.count * max 1 n.settings.maxSends.toNat - n.sendCount.toNat
    rw [toNat_sendCount_add_one hlast, hcount, Nat.add_mul, Nat.one_mul]
    omega
  | depart p w hp _ ht =>
    obtain ⟨hw, -⟩ := hP.onward.transmit trivial ht h.within
    exact ⟨⟨hw, fun hpos => absurd hpos (by simp)⟩, rfl, rfl, sendsLeft_of_pop hs hp rfl rfl rfl⟩

theorem Obliging.noting (hP : Obliging P) {code : UInt8} (hn : Noting code n n') :
    Onward P n.world n'.world := hP.onward.noting (.inl trivial) hn

theorem Underway.launches (hP : Obliging P) (hs : n.Sound) (h : Underway P n)
    (hl : Launches n n') : Underway P n' ∧ n'.settings = n.settings ∧
      n'.sendsLeft + 1 ≤ n.sendsLeft := by
  obtain ⟨m, hlaunch, hremarks⟩ := hl
  obtain ⟨hm, -, hset, hleft⟩ := h.launch hP hs hlaunch
  have honward := hP.onward.errands trivial (.inl trivial) hremarks.errands
  have hn' := (hm.noted hremarks.noted honward).1
  obtain ⟨w, t, rfl⟩ := hremarks.noted
  exact ⟨hn', hset, hleft⟩

/-- A transmission makes up for the wait that follows it. -/
theorem Underway.queueWork_sent (hP : Obliging P) (h : Underway P n')
    (hset : n'.settings = n.settings) (hleft : n'.sendsLeft + 1 ≤ n.sendsLeft)
    (hrange : clockOf n'.paused.world + n.settings.retryInterval.toNat < UInt64.size) :
    n'.paused.queueWork + 1 ≤ n.queueWork := by
  have hwait := h.retryWait_paused hP (hset ▸ hrange)
  rw [hset] at hwait
  calc n'.paused.queueWork + 1
      = n'.sendsLeft * max 1 n.settings.retryInterval.toNat + (n'.paused.retryWait + 1) := by
        rw [← hset]
        rfl
    _ ≤ n'.sendsLeft * max 1 n.settings.retryInterval.toNat +
          max 1 n.settings.retryInterval.toNat := Nat.add_le_add_left hwait _
    _ = (n'.sendsLeft + 1) * max 1 n.settings.retryInterval.toNat := (Nat.succ_mul ..).symm
    _ ≤ n.sendsLeft * max 1 n.settings.retryInterval.toNat := Nat.mul_le_mul_right _ hleft
    _ ≤ n.queueWork := Nat.le_add_right ..

theorem Underway.resends (hP : Obliging P) (hs : n.Sound) (h : Underway P n)
    (hqueue : n.queue.isEmpty = false) (hr : Resends n n')
    (hrange : clockOf n'.paused.world + n.settings.retryInterval.toNat < UInt64.size) :
    Underway P n' ∧ n'.paused.queueWork + 1 ≤ n.queueWork := by
  have hasked := hP.onward.canSend n.world
  have hread := hP.onward.now n.world
  have hreadAsked := hP.onward.trans hread (hP.onward.canSend (Clock.now n.world).2)
  cases hr with
  | empty hempty => simp [hqueue] at hempty
  | held _ _ hf => simp [hP.free n.world h.within] at hf
  | refused _ _ _ _ _ hf => simp [hP.free _ (hread h.within).1] at hf
  | first _ _ _ hl =>
    obtain ⟨hm, hwork⟩ := h.frame (m := { n with world := (Medium.canSend n.world).2 }) hasked
      rfl rfl rfl rfl
    obtain ⟨hn', hset, hleft⟩ := hm.launches hP (hs.in_world _) hl
    exact ⟨hn', hn'.queueWork_sent hP hset hleft hrange⟩
  | early deadline _ hpos hd hearly =>
    obtain ⟨hn', -⟩ := h.frame (m := { n with world := (Clock.now n.world).2 }) hread rfl rfl rfl
      rfl
    refine ⟨hn', ?_⟩
    obtain ⟨hw, hclock⟩ := hread h.within
    have hticks := hP.pause_ticks hw
    have hlate : clockOf n.world < deadline.toNat := UInt64.lt_iff_toNat_lt.1 hearly
    have hlast := UInt64.toNat_lt_size deadline
    have hzero : n.sendCount ≠ 0 := UInt8.pos_iff_ne_zero.1 hpos
    rw [toNat_of_retryTime hd] at hlate hlast
    refine Nat.add_lt_add_left ?_ _
    simp only [retryWait, if_neg hzero]
    omega
  | again deadline _ _ _ _ _ h₁ h₂ hl =>
    have hm := (h.frame (m := { n with world := (Medium.canSend (Clock.now n.world).2).2 })
      hreadAsked rfl rfl rfl rfl).1
    have hm₁ := (hm.noted h₁.noted (hP.noting h₁)).1
    have hm₂ := (hm₁.noted h₂.noted (hP.noting h₂)).1
    have hs₂ := ((hs.in_world _).noting h₁).noting h₂
    obtain ⟨w, t, rfl⟩ := h₁.noted.trans h₂.noted
    obtain ⟨hn', hset, hleft⟩ := hm₂.launches hP hs₂ hl
    exact ⟨hn', hn'.queueWork_sent hP hset hleft hrange⟩

theorem Underway.starts (hP : Obliging P) (hs : n.Sound) (h : Underway P n) (hst : Starts n n')
    (hrange : clockOf n'.paused.world + n.settings.retryInterval.toNat < UInt64.size) :
    Underway P n'.paused ∧ n'.paused.work ≤ n.work ∧
      (n.busy = true → n'.paused.work + 1 ≤ n.work) := by
  cases hst with
  | unowing hnone hr =>
    cases hqueue : n.queue.isEmpty with
    | true =>
      obtain rfl := hr.of_empty hqueue
      obtain ⟨hu, -, hwork⟩ := h.pause hP
      exact ⟨hu, hwork, fun hbusy => by simp [busy, hqueue, hnone] at hbusy⟩
    | false =>
      obtain ⟨hn', hwork⟩ := h.resends hP hs hqueue hr hrange
      have hnone' : n'.pendingAck = none := hr.errands.keeps.2.trans hnone
      rw [work_of_unowing hnone, work_of_unowing (n := n'.paused) hnone']
      exact ⟨(hn'.pause hP).1, Nat.le_of_succ_le hwork, fun _ => hwork⟩
  | answer ack w hack hf ht =>
    have honward := hP.onward.trans (hP.onward.canSend n.world) (hP.onward.transmit trivial ht)
    obtain ⟨hn', hsent⟩ := h.frame (m := { n with world := w, pendingAck := none }) honward
      rfl rfl rfl rfl
    obtain ⟨hu, hpaused, -⟩ := hn'.pause hP
    have hwork := Nat.le_trans hpaused hsent
    rw [work_of_owing hack, work_of_unowing (n := paused { n with world := w, pendingAck := none })
      rfl]
    exact ⟨hu, by omega, fun _ => by omega⟩
  | refused _ _ hf => simp [hP.free n.world h.within] at hf

end Stages

/-- How often something came of asking for a frame. -/
def arrivals (log : List Event) : Nat := (receptions log).countP (· ≠ .nothing)

theorem arrivals_of_nothing {log log' : List Event}
    (h : receptions log' = receptions log ++ [.nothing]) : arrivals log' = arrivals log := by
  rw [arrivals, h, List.countP_append]
  rfl

theorem arrivals_of_something {log log' : List Event} {r : Reception} (hr : r ≠ .nothing)
    (h : receptions log' = receptions log ++ [r]) : arrivals log' = arrivals log + 1 := by
  rw [arrivals, h, List.countP_append, List.countP_singleton, if_pos (decide_eq_true hr)]
  rfl

theorem arrivals_congr {log log' : List Event} (h : receptions log' = receptions log) :
    arrivals log' = arrivals log := by
  rw [arrivals, h, arrivals]

section Passes

variable [Medium W] [Clock W] [SignalSource W] {P : Recorded W → Prop}
  {n n' : Node (Recorded W)} {delivered : Option UInt8}

theorem Underway.hears (hP : Obliging P) (hs : n.Sound) (h : Underway P n)
    (hh : Hears n delivered n') : Underway P n' ∧
      (n'.work + arrivals n.world.log + 1 ≤ n.work + arrivals n'.world.log ∨
        n'.work + arrivals n.world.log ≤ n.work + arrivals n'.world.log ∧
          (n.busy = true → n'.busy = true)) := by
  have hreceive := hP.receive n.world
  cases hh with
  | ignore r w hr hno =>
    rw [hr] at hreceive
    obtain ⟨hn', hwork⟩ := h.frame (m := { n with world := w, received := r.into n.received })
      hreceive rfl rfl rfl rfl
    have hrec := receptions_received hr
    refine ⟨hn', ?_⟩
    unfold work
    by_cases hnothing : r = .nothing
    · have harrivals := arrivals_of_nothing (hnothing ▸ hrec)
      exact .inr ⟨by dsimp only; omega, fun hbusy => hbusy⟩
    · have harrivals := arrivals_of_something hnothing hrec
      exact .inl (by dsimp only; omega)
  | deliver p w hr ha =>
    rw [hr] at hreceive
    obtain ⟨hn', hwork⟩ := h.frame (m := { n with
      world := (SignalSource.sample w).2
      received := p
      receiveSignal := (SignalSource.sample w).1
      pendingAck := n.owing p.header (SignalSource.sample w).1 })
      (hP.onward.trans hreceive (hP.sample w)) rfl rfl rfl rfl
    have harrivals := arrivals_of_something (by simp) (receptions_sampled hr)
    refine ⟨hn', ?_⟩
    unfold work
    cases hwants : p.header.wantsAck with
    | true =>
      refine .inr ⟨?_, fun _ => ?_⟩
      · simp only [owing, hwants, if_true, Option.toList_some, List.length_singleton] at hwork ⊢
        omega
      · simp [busy, owing, hwants]
    | false =>
      left
      simp only [owing, hwants, Bool.false_eq_true, if_false] at hwork ⊢
      omega
  | settle p w hr hset =>
    rw [hr] at hreceive
    have harrivals := arrivals_of_something (by simp) (receptions_sampled hr)
    obtain ⟨hwithin, -⟩ := hP.onward.trans hreceive (hP.sample w) h.within
    refine ⟨⟨hwithin, fun hpos => absurd hpos (by simp)⟩, .inl ?_⟩
    obtain ⟨q, hq⟩ := Queue.exists_head hset.2.2.2.2.1
    have hwork := queueWork_of_pop (m := { n with
      world := (SignalSource.sample w).2
      received := p
      receiveSignal := (SignalSource.sample w).1
      ackSignal := reportedSignal p.payload
      queue := n.queue.pop
      sendCount := 0 }) hs hq rfl rfl rfl
    unfold work
    dsimp only
    omega

/-- A poll that a flush goes on from, and the pause after it, leave less to do, unless a frame came
in. -/
theorem Underway.pass (hP : Obliging P) (hs : n.Sound) (h : Underway P n) (hbusy : n.busy = true)
    (hp : Pass n delivered n')
    (hrange : clockOf n'.paused.world + n.settings.retryInterval.toNat < UInt64.size) :
    Underway P n'.paused ∧
      n'.paused.work + arrivals n.world.log + 1 ≤ n.work + arrivals n'.world.log := by
  cases hp with
  | off hoff => exact absurd (hP.enabled n.world h.within) (by simpa [enabled] using hoff)
  | @on n₁ n₂ n₃ _ _ he hships hhears hremarks hstarts =>
    have hs₁ := hs.moves hships.errands.moves
    have hs₂ := hs₁.move hhears.move
    have hs₃ := hs₂.moves hremarks.errands.moves
    have hset : n₃.settings = n.settings := (Moves.steady
      (hships.errands.moves.trans (.head hhears.move hremarks.errands.moves))).2
    have harr₁ := arrivals_congr hships.errands.hear_nothing
    have harr' := arrivals_congr (hstarts.hear_nothing.trans hremarks.errands.hear_nothing)
    have hships_onward := hP.onward.errands trivial (.inl trivial) hships.errands
    have hremarks_onward := hP.onward.errands trivial (.inl trivial) hremarks.errands
    obtain ⟨h₁, -, hwork₁⟩ := h.noted hships.noted hships_onward
    obtain ⟨h₂, hheard⟩ := h₁.hears hP hs₁ hhears
    obtain ⟨h₃, -, hwork₃⟩ := h₂.noted hremarks.noted hremarks_onward
    obtain ⟨h', hwork', hless⟩ := h₃.starts hP hs₃ hstarts (hset ▸ hrange)
    refine ⟨h', ?_⟩
    rcases hheard with hpaid | ⟨hkept, hstays⟩
    · omega
    · have hbusy₁ : n₁.busy = true := hships.noted.busy.trans hbusy
      have hbusy₃ : n₃.busy = true := hremarks.noted.busy.trans (hstays hbusy₁)
      have hdone := hless hbusy₃
      omega

end Passes

end StarNet.Node
