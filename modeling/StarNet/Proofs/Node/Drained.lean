import StarNet.Proofs.Node.Answers

/-!
What a drained flush leaves. Its queue is always empty. But an idle node polls once and goes no
further, so a request that names no module and finds the medium taken stays unanswered.
-/
namespace StarNet.Node

def Event.reception? : Event → Option Reception
  | .heard r => some r
  | _ => none

/-- All that came of asking for a frame. -/
def receptions (log : List Event) : List Reception := log.filterMap Event.reception?

theorem receptions_heard (log : List Event) (r : Reception) :
    receptions (log ++ [.heard r]) = receptions log ++ [r] := List.filterMap_append

theorem receptions_concat {log : List Event} {e : Event} (h : e.reception? = none) :
    receptions (log ++ [e]) = receptions log := by
  rw [receptions, List.filterMap_append, List.filterMap_cons_none h]
  exact List.append_nil _

/-- The module that a reception is delivered to: that of a data frame for this node which names
one. -/
def moduleHeard (own : Identity) : Reception → Option UInt8
  | .frame p =>
    if ¬ (p.header.directed = true ∧ p.header.node ≠ own.node.number) ∧
        p.header.control = false then p.module?
    else none
  | _ => none

variable {W : Type}

/-- An idle node whose only poll heard a request without a payload, and then found the medium
taken. -/
def LeftOwing (n n' : Node (Recorded W)) : Prop :=
  n.busy = false ∧ ∃ p, receptions n'.world.log = receptions n.world.log ++ [.frame p] ∧
    Requests n.identity p.header ∧ p.payload = [] ∧ n'.world.log.getLast? = some (.asked false)

variable [Medium W] [Clock W] [SignalSource W] {n n' : Node (Recorded W)}
  {delivered : Option UInt8}

omit [SignalSource W] in
theorem respects_receptions : Respects (fun _ => True) (fun r r' : Recorded W =>
    receptions r'.log = receptions r.log) where
  refl _ := rfl
  trans h h' := h'.trans h
  configure _ _ _ := receptions_concat rfl
  canSend _ := receptions_concat rfl
  transmit _ ht := Recorded.log_transmit ht ▸ receptions_concat rfl
  noted _ _ := receptions_concat rfl
  now _ := receptions_concat rfl
  pause _ := rfl

omit [SignalSource W] in
theorem Errands.hear_nothing (h : Errands n n') :
    receptions n'.world.log = receptions n.world.log :=
  respects_receptions.errands trivial (.inl trivial) h

omit [SignalSource W] in
theorem Starts.hear_nothing (h : Starts n n') : receptions n'.world.log = receptions n.world.log :=
  respects_receptions.starts trivial trivial (.inl trivial) h

omit [Clock W] [SignalSource W] in
theorem receptions_received {r w : Recorded W} {reception : Reception}
    (h : Medium.receive r = (reception, w)) :
    receptions w.log = receptions r.log ++ [reception] := by
  rw [Recorded.log_receive h, receptions_heard]

omit [Clock W] in
theorem receptions_sampled {r w : Recorded W} {reception : Reception}
    (h : Medium.receive r = (reception, w)) :
    receptions (SignalSource.sample w).2.log = receptions r.log ++ [reception] := by
  rw [Recorded.log_sample, receptions_concat rfl, receptions_received h]

omit [Clock W] in
theorem Hears.hear_one (h : Hears n delivered n') :
    ∃ r, receptions n'.world.log = receptions n.world.log ++ [r] ∧
      delivered = moduleHeard n.identity r := by
  cases h with
  | ignore r w hr hno =>
    refine ⟨r, receptions_received hr, ?_⟩
    cases r with
    | frame p => exact (if_neg (hno p rfl).1).symm
    | _ => rfl
  | deliver p w hr ha => exact ⟨.frame p, receptions_sampled hr, (if_pos ha).symm⟩
  | settle p w hr hs =>
    refine ⟨.frame p, receptions_sampled hr, (if_neg fun ha => ?_).symm⟩
    exact absurd ha.2 (by simp [hs.2.1])

theorem Pass.hear_one (he : n.enabled = true) (h : Pass n delivered n') :
    ∃ r, receptions n'.world.log = receptions n.world.log ++ [r] ∧
      delivered = moduleHeard n.identity r := by
  cases h with
  | off hoff => exact absurd he (by simp [hoff])
  | on _ hships hhears hremarks hstarts =>
    obtain ⟨r, hr, hd⟩ := hhears.hear_one
    refine ⟨r, ?_, ?_⟩
    · rw [hstarts.hear_nothing, hremarks.errands.hear_nothing, hr, hships.errands.hear_nothing]
    · rw [hd, (Moves.steady hships.errands.moves).1]

omit [Clock W] in
theorem Hears.owing (h : Hears n delivered n') (hnone : delivered = none)
    (hqueue : n.queue.isEmpty = true) (hpending : n.pendingAck = none) :
    n'.queue = n.queue ∧ (n'.pendingAck.isSome = true ↔
      ∃ p, receptions n'.world.log = receptions n.world.log ++ [.frame p] ∧
        Requests n.identity p.header ∧ p.payload = []) := by
  obtain ⟨r, hr, -⟩ := h.hear_one
  have heard {p : Packet} (hp : receptions n'.world.log = receptions n.world.log ++ [.frame p]) :
      r = .frame p := by
    rw [hr] at hp
    exact List.singleton_inj.1 (List.append_cancel_left hp)
  cases h with
  | ignore r' w hrec hno =>
    have hsame : r' = r :=
      List.singleton_inj.1 (List.append_cancel_left ((receptions_received hrec).symm.trans hr))
    refine ⟨rfl, iff_of_false (by simp [hpending]) ?_⟩
    rintro ⟨p, hp, hreq, -⟩
    exact (hno p (hsame.trans (heard hp))).1 ⟨hreq.1, hreq.2.1⟩
  | deliver p w hrec ha =>
    have hlog : receptions (SignalSource.sample w).2.log =
        receptions n.world.log ++ [.frame p] := receptions_sampled hrec
    have hsame : r = .frame p := heard hlog
    have hempty : p.payload = [] := List.head?_eq_none_iff.1 hnone
    refine ⟨rfl, ?_⟩
    simp only [Node.owing, hpending]
    constructor
    · intro howed
      refine ⟨p, hlog, ⟨ha.1, ha.2, ?_⟩, hempty⟩
      cases hwants : p.header.wantsAck with
      | true => rfl
      | false => simp [hwants] at howed
    · rintro ⟨q, hq, hreq, -⟩
      obtain rfl : p = q := Reception.frame.inj (hsame.symm.trans (heard hq))
      rw [if_pos hreq.2.2]
      rfl
  | settle p w hrec hs => exact absurd hqueue (by simp [hs.2.2.2.2.1])

omit [SignalSource W] in
theorem Resends.of_empty {n n' : Node W} (h : Resends n n') (hqueue : n.queue.isEmpty = true) :
    n' = n := by
  have hbusy : n.queue.isEmpty ≠ false := by simp [hqueue]
  cases h with
  | empty => rfl
  | held hq | first hq | early _ hq | refused _ hq | again _ hq => exact absurd hq hbusy

omit [SignalSource W] in
theorem Starts.owing (h : Starts n n') (hqueue : n.queue.isEmpty = true) :
    n'.queue = n.queue ∧ (n'.pendingAck.isSome = true ↔
      n.pendingAck.isSome = true ∧ n'.world.log.getLast? = some (.asked false)) := by
  cases h with
  | unowing hnone hr =>
    obtain rfl := hr.of_empty hqueue
    simp [hnone]
  | answer ack w hack hfree ht => simp [Recorded.log_transmit ht]
  | refused ack hack hf hr =>
    obtain rfl := hr.of_empty hqueue
    simp [hack, hf]

theorem Pass.owing (h : Pass n none n') (hidle : n.busy = false) :
    n'.queue.isEmpty = true ∧ (n'.pendingAck.isSome = true ↔ LeftOwing n n') := by
  obtain ⟨hqueue, hpending⟩ : n.queue.isEmpty = true ∧ n.pendingAck = none := by
    simpa [busy] using hidle
  cases h with
  | off =>
    refine ⟨hqueue, iff_of_false (by simp [hpending]) ?_⟩
    rintro ⟨-, p, hp, -⟩
    exact absurd hp (by simp)
  | on he hships hhears hremarks hstarts =>
    have hships_rec := hships.errands.hear_nothing
    have hremarks_rec := hremarks.errands.hear_nothing
    obtain ⟨w₁, t₁, rfl⟩ := hships.noted
    obtain ⟨hsame, howed⟩ := hhears.owing rfl hqueue hpending
    obtain ⟨w₃, t₃, rfl⟩ := hremarks.noted
    obtain ⟨hleft, hstays⟩ := hstarts.owing (by rw [hsame]; exact hqueue)
    have hempty : n'.queue.isEmpty = true := by
      rw [hleft, hsame]
      exact hqueue
    refine ⟨hempty, hstays.trans ?_⟩
    rw [hremarks_rec.symm, hships_rec] at howed
    rw [howed, LeftOwing, hstarts.hear_nothing]
    constructor
    · rintro ⟨⟨p, hp, hreq, hpayload⟩, hlast⟩
      exact ⟨hidle, p, hp, hreq, hpayload, hlast⟩
    · rintro ⟨-, p, hp, hreq, hpayload, hlast⟩
      exact ⟨⟨p, hp, hreq, hpayload⟩, hlast⟩

omit [Medium W] [Clock W] [SignalSource W] in
theorem idle_iff {n : Node W} :
    n.busy = false ↔ n.queue.isEmpty = true ∧ n.pendingAck.isSome = false := by
  simp [busy]

theorem Passes.idle {n n' : Node W} {result : FlushResult} (h : Passes n result n')
    (hdrained : result = .drained) : n'.busy = false := by
  induction h with
  | drained _ hidle => exact hidle
  | delivered => cases hdrained
  | stuck => cases hdrained
  | again _ _ _ ih => exact ih hdrained

/-- A drained flush leaves the queue empty, and an acknowledgement owed in one case only. -/
theorem drained_flush_owes_iff {allowance : Nat}
    (h : (flush allowance).run n = .ok (.drained, n')) :
    n'.queue.isEmpty = true ∧ (n'.pendingAck.isSome = true ↔ LeftOwing n n') := by
  have hflush : Flushes n .drained n' := ((flush_travels allowance .refl).of_run_eq h).2
  generalize hresult : FlushResult.drained = result at hflush
  cases hflush with
  | @idle _ delivered hidle hp =>
    cases delivered with
    | none => exact hp.owing hidle
    | some m => cases hresult
  | busy hbusy hp =>
    obtain ⟨hqueue, hpending⟩ := idle_iff.1 (hp.idle hresult.symm)
    exact ⟨hqueue, iff_of_false (by simp [hpending]) fun howing => by simp [howing.1] at hbusy⟩

def waitingAnswer : List (Happening Bench.World) :=
  [receiving 7 true [⟨0x25⟩], .command .poll, .command (.send 1 true), receiving 7 false []]

theorem drained_flush_answers_waiting_request : ∃ r n',
    play (benchStart { maxSends := 2, retryInterval := 1000 }) waitingAnswer = some r ∧
      r.2.pendingAck.isSome = true ∧ (flush 10).run r.2 = .ok (.drained, n') ∧
      n'.queue.isEmpty = true ∧ ¬ n'.pendingAck.isSome = true := by
  have hrun : (play (benchStart { maxSends := 2, retryInterval := 1000 }) waitingAnswer).any
      (fun r => r.2.busy = true ∧ r.2.pendingAck.isSome = true ∧
        ((flush 10).run r.2).toOption.any (fun x => x.1 = .drained) = true) = true := by
    decide +kernel
  obtain ⟨r, hr, hd⟩ := (Option.any_eq_true ..).1 hrun
  obtain ⟨hbusy, hpending, hends⟩ := of_decide_eq_true hd
  obtain ⟨result, n', hflush, hresult⟩ := run_of_any hends
  obtain rfl : result = .drained := of_decide_eq_true hresult
  obtain ⟨hqueue, howes⟩ := drained_flush_owes_iff hflush
  exact ⟨r, n', hr, hpending, hflush, hqueue, fun howing => by simp [(howes.1 howing).1] at hbusy⟩

def silentRequest : List (Happening Bench.World) := [receiving 7 true [⟨0x22⟩]]

/-- However many pauses it is allowed, a flush is content to leave it unanswered. -/
theorem drained_flush_leaves_silent_request : ∃ r n',
    play (benchStart {}) silentRequest = some r ∧ r.2.enabled = true ∧
      (flush 1000).run r.2 = .ok (.drained, n') ∧ n'.pendingAck = some ⟨⟨0xC2⟩, 7⟩ := by
  have hrun : (play (benchStart {}) silentRequest).any (fun r => r.2.enabled = true ∧
      ((flush 1000).run r.2).toOption.any
        (fun x => x.1 = .drained ∧ x.2.pendingAck = some ⟨⟨0xC2⟩, 7⟩) = true) = true := by
    decide +kernel
  obtain ⟨r, hr, hd⟩ := (Option.any_eq_true ..).1 hrun
  obtain ⟨he, hends⟩ := of_decide_eq_true hd
  obtain ⟨result, n', hflush, hleft⟩ := run_of_any hends
  obtain ⟨rfl, hpending⟩ := of_decide_eq_true hleft
  exact ⟨r, n', hr, he, hflush, hpending⟩

end StarNet.Node
