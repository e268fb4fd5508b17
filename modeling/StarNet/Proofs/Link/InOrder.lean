import StarNet.Proofs.Link.AckDelivery
import StarNet.Proofs.Link.Exchange
import StarNet.Proofs.Node.Deadline

/-!
What is delivered over a link. A node sends its packets one after the other, a channel keeps the
order, and the peer delivers what it is handed, so the deliveries are an image of the packets in
order: some may come more than once, as often as a packet may be sent, and some not at all.
-/
namespace StarNet

/-- The payloads `ds` are those of packets of `ps`, going forward only, none more than `limit`
times. -/
def InOrder (limit : Nat) (ps : List Packet) (ds : List (List UInt8)) : Prop :=
  ∃ places : List Nat, places.Pairwise (· ≤ ·) ∧
    places.map (fun i => (ps[i]?).map Packet.payload) = ds.map some ∧
    ∀ i, places.count i ≤ limit

def allowed (limit : Nat) (ps : List Packet) : List (List UInt8) :=
  ps.flatMap fun p => List.replicate limit p.payload

theorem allowed_append (limit : Nat) (ps qs : List Packet) :
    allowed limit (ps ++ qs) = allowed limit ps ++ allowed limit qs := List.flatMap_append

theorem fits_of_mem_allowed {limit : Nat} {ps : List Packet} {d : List UInt8}
    (h : d ∈ allowed limit ps) : d.length ≤ maxData := by
  obtain ⟨p, -, hd⟩ := List.mem_flatMap.1 h
  rw [List.eq_of_mem_replicate hd]
  exact p.length_payload_le

def allowedPlaces (limit k : Nat) : List Nat := (List.range k).flatMap (List.replicate limit ·)

theorem pairwise_allowedPlaces (limit k : Nat) : (allowedPlaces limit k).Pairwise (· ≤ ·) := by
  refine List.pairwise_flatMap.2 ⟨fun i _ => ?_, List.pairwise_lt_range.imp ?_⟩
  · exact List.pairwise_replicate.2 (.inr (Nat.le_refl i))
  · intro i j hij a ha b hb
    rw [List.eq_of_mem_replicate ha, List.eq_of_mem_replicate hb]
    exact Nat.le_of_lt hij

theorem count_allowedPlaces_le (limit k i : Nat) : (allowedPlaces limit k).count i ≤ limit := by
  suffices h : (allowedPlaces limit k).count i = if i < k then limit else 0 by
    rw [h]
    split <;> omega
  induction k with
  | zero => rfl
  | succ k ih =>
    rw [allowedPlaces, List.range_succ, List.flatMap_append, List.flatMap_singleton,
      List.count_append, ← allowedPlaces, ih, List.count_replicate]
    grind

theorem map_allowedPlaces (limit : Nat) (ps : List Packet) :
    (allowedPlaces limit ps.length).map (fun i => (ps[i]?).map Packet.payload) =
      (allowed limit ps).map some := by
  have hps : ps.map some = (List.range ps.length).map (ps[·]?) := by
    refine List.ext_getElem (by simp) fun i hi _ => ?_
    simp only [List.length_map] at hi
    simp [hi]
  calc (allowedPlaces limit ps.length).map (fun i => (ps[i]?).map Packet.payload)
    _ = ((List.range ps.length).map (ps[·]?)).flatMap
          fun p => List.replicate limit (p.map Packet.payload) := by
      simp only [allowedPlaces, List.map_flatMap, List.map_replicate, List.flatMap_map]
    _ = (allowed limit ps).map some := by
      simp only [← hps, allowed, List.map_flatMap, List.map_replicate, List.flatMap_map,
        Option.map_some]

theorem in_order_of_sublist {limit : Nat} {ps : List Packet} {ds : List (List UInt8)}
    (h : ds.Sublist (allowed limit ps)) : InOrder limit ps ds := by
  have hsome := h.map some
  rw [← map_allowedPlaces, List.sublist_map_iff] at hsome
  obtain ⟨places, hsub, hmap⟩ := hsome
  refine ⟨places, (pairwise_allowedPlaces ..).sublist hsub, hmap.symm, ?_⟩
  intro i
  exact Nat.le_trans (hsub.count_le i) (count_allowedPlaces_le ..)

theorem sublist_of_numbered {ts : List Transmission} {fs : List Frame} {k : Nat}
    (ho : (fs.map (·.number)).Pairwise (· < ·)) (hk : ∀ f ∈ fs, k ≤ f.number)
    (hn : ∀ f ∈ fs, ts[f.number]? = some f.toTransmission) :
    (fs.map (·.toTransmission)).Sublist (ts.drop k) := by
  induction fs generalizing k with
  | nil => exact List.nil_sublist _
  | cons f fs ih =>
    rw [List.map_cons, List.pairwise_cons] at ho
    have hrest : (fs.map (·.toTransmission)).Sublist (ts.drop (f.number + 1)) := by
      refine ih ho.2 (fun g hg => ?_) fun g hg => hn g (List.mem_cons_of_mem f hg)
      exact ho.1 g.number (List.mem_map_of_mem hg)
    obtain ⟨hlt, hf⟩ := List.getElem?_eq_some_iff.1 (hn f List.mem_cons_self)
    have hdrop : ts.drop f.number = f.toTransmission :: ts.drop (f.number + 1) := by
      rw [List.drop_eq_getElem_cons hlt, hf]
    have hfront : (ts.drop f.number).Sublist (ts.drop k) :=
      List.drop_sublist_drop_left ts (hk f List.mem_cons_self)
    rw [hdrop] at hfront
    exact (hrest.cons_cons f.toTransmission).trans hfront

theorem Frame.payload_packet {f : Frame} (h : f.payload.length ≤ maxData) :
    f.packet.payload = f.payload := by
  refine Packet.payload_setPayload (p := { header := f.header }) ?_
  rw [Packet.setPayload, if_neg (Nat.not_lt.2 h)]
  rfl

namespace Node

variable {E : Type} {n n' : Node (Station E)} {limit : Nat} {ps : List Packet}

/-- The packets `ps` entered the queue; those that left it account for all that was sent before
the head packet. -/
def Accounts (limit : Nat) (ps : List Packet) (n : Node (Station E)) : Prop :=
  ∃ gone before, ps = gone ++ n.queue.toList ∧ n.world.sent = before ++ n.awaited ∧
    (before.map (·.payload)).Sublist (allowed limit gone)

theorem Accounts.same (h : Accounts limit ps n) (hq : n'.queue = n.queue)
    (hc : n'.sendCount = n.sendCount) (hs : n'.world.sent = n.world.sent) :
    Accounts limit ps n' := by
  obtain ⟨gone, before, hps, hsent, hsub⟩ := h
  refine ⟨gone, before, hq ▸ hps, ?_, hsub⟩
  rw [hs, hsent, awaited, awaited, hq, hc]

theorem Accounts.leave {p : Packet} (h : Accounts limit ps n) (last : List Transmission)
    (hp : n.queue.head? = some p) (hq : n'.queue = n.queue.pop) (hc : n'.sendCount = 0)
    (hs : n'.world.sent = n.world.sent ++ last) (hl : ∀ t ∈ last, t.payload = p.payload)
    (hk : n.sendCount.toNat + last.length ≤ limit) : Accounts limit ps n' := by
  obtain ⟨gone, before, hps, hsent, hsub⟩ := h
  refine ⟨gone ++ [p], before ++ n.awaited ++ last, ?_, ?_, ?_⟩
  · rw [hps, hq, Queue.toList_pop, Queue.toList_of_head hp]
    simp
  · rw [hs, hsent, awaited_of_zero hc, List.append_nil]
  · have hlast : last.map (·.payload) = List.replicate last.length p.payload := by
      rw [List.eq_replicate_iff]
      simpa using hl
    have hblock : (n.awaited ++ last).map (·.payload) =
        List.replicate (n.sendCount.toNat + last.length) p.payload := by
      simp only [awaited, hp, List.map_append, List.map_replicate, hlast,
        List.replicate_append_replicate]
    rw [List.append_assoc, List.map_append, hblock, allowed_append]
    refine hsub.append ?_
    rw [allowed, List.flatMap_singleton]
    exact (List.replicate_sublist_replicate _).2 hk

theorem Accounts.sublist (h : Accounts limit ps n) (hc : n.sendCount.toNat ≤ limit) :
    (n.world.sent.map (·.payload)).Sublist (allowed limit ps) := by
  obtain ⟨gone, before, hps, hsent, hsub⟩ := h
  rw [hps, hsent, List.map_append, allowed_append]
  refine hsub.append ?_
  unfold awaited
  split
  · rename_i p hp
    rw [Queue.toList_of_head hp, List.map_replicate, allowed, List.flatMap_cons]
    exact ((List.replicate_sublist_replicate _).2 hc).trans (List.sublist_append_left ..)
  · exact List.nil_sublist _

theorem Sound.sendCount_le (h : n.Sound) :
    n.sendCount.toNat ≤ max 1 n.settings.maxSends.toNat := by
  rcases h.awaiting with hz | ⟨_, _, _, hlt⟩
  · simp [hz]
  · omega

variable [Medium E] [Clock E] [SignalSource E]

omit [SignalSource E] in
theorem Accounts.launch (hs : n.Sound) (h : Accounts limit ps n)
    (hlimit : limit = max 1 n.settings.maxSends.toNat) (hl : Launch n n') :
    Accounts limit ps n' := by
  cases hl with
  | await p w hp ha hlast ht =>
    obtain ⟨site, rfl⟩ := Station.transmit_eq ht
    have hc := toNat_sendCount_add_one hlast
    obtain ⟨gone, before, hps, hsent, hsub⟩ := h
    refine ⟨gone, before, hps, ?_, hsub⟩
    show n.world.sent ++ [_] = _
    rw [hsent]
    simp only [awaited, hp, hc, List.replicate_succ', List.append_assoc]
  | depart p w hp _ ht =>
    obtain ⟨site, rfl⟩ := Station.transmit_eq ht
    refine h.leave [⟨.data, p.header.withoutAck, p.payload⟩] hp rfl rfl rfl (by simp) ?_
    rcases hs.awaiting with hz | ⟨_, _, _, hlt⟩
    · simp [hz]
      omega
    · simp
      omega

omit [Clock E] [SignalSource E] in
theorem sent_of_transmit {s s' : Station E} {t : Transmission} (h : Medium.transmit s t = .ok s')
    (ht : t.purpose ≠ .data) : s'.sent = s.sent := by
  obtain ⟨site, rfl⟩ := Station.transmit_eq h
  exact if_neg ht

omit [Clock E] [SignalSource E] in
theorem Accounts.noting {code : UInt8} (h : Accounts limit ps n) (hn : Noting code n n') :
    Accounts limit ps n' := by
  cases hn with
  | kept => exact h.same rfl rfl rfl
  | held => exact h.same rfl rfl rfl
  | shipped w _ _ ht =>
    have hsent := sent_of_transmit ht nofun
    exact h.same rfl rfl hsent

theorem Accounts.move (hs : n.Sound) (h : Accounts limit ps n)
    (hlimit : limit = max 1 n.settings.maxSends.toNat) (hm : Move n n') :
    Accounts limit ps n' := by
  cases hm with
  | note code hn => exact h.noting hn
  | ship _ _ w _ _ ht =>
    have hsent := sent_of_transmit ht nofun
    exact h.same rfl rfl hsent
  | ignore r w hr => exact h.same rfl rfl (Station.receive_keeps hr).1
  | deliver p w hr =>
    have hsent := (Station.receive_keeps hr).1
    exact h.same rfl rfl hsent
  | settle p w hr ha =>
    obtain ⟨q, hq⟩ := Queue.exists_head ha.2.2.2.2.1
    refine h.leave [] hq rfl rfl ?_ nofun (hlimit ▸ hs.sendCount_le)
    exact (Station.receive_keeps hr).1.trans (List.append_nil _).symm
  | answer ack w _ _ ht =>
    have hsent := sent_of_transmit ht nofun
    exact h.same rfl rfl hsent
  | first _ _ hl =>
    have hasked : Accounts limit ps { n with world := (Medium.canSend n.world).2 } :=
      h.same rfl rfl rfl
    exact hasked.launch (hs.in_world _) hlimit hl
  | again deadline _ _ _ _ h₁ h₂ hl =>
    have hasked : Accounts limit ps { n with world := (Medium.canSend (Clock.now n.world).2).2 } :=
      h.same rfl rfl rfl
    refine ((hasked.noting h₁).noting h₂).launch (((hs.in_world _).noting h₁).noting h₂) ?_ hl
    obtain ⟨w, t, rfl⟩ := h₁.noted.trans h₂.noted
    exact hlimit
  | _ => exact h.same rfl rfl rfl

theorem Accounts.moves (hs : n.Sound) (h : Accounts limit ps n)
    (hlimit : limit = max 1 n.settings.maxSends.toNat) (hm : Moves n n') :
    Accounts limit ps n' := by
  induction hm with
  | refl => exact h
  | tail hms hm ih =>
    exact ih.move (hs.moves hms) (hlimit.trans (by rw [(Moves.steady hms).2])) hm

omit [Medium E] [Clock E] [SignalSource E] in
theorem Accounts.enters {c : Command} {qs : List Packet} (hs : n.Sound) (h : Accounts limit ps n)
    (he : Enters c n qs n') : Accounts limit (ps ++ qs) n' := by
  obtain ⟨gone, before, hps, hsent, hsub⟩ := h
  cases he with
  | nothing => exact ⟨gone, before, by rw [hps, List.append_nil], hsent, hsub⟩
  | fill change =>
    refine ⟨gone, before, ?_, ?_, hsub⟩
    · rw [Queue.toList_fill, hps, List.append_nil]
    · simp only [awaited, Queue.head?, Queue.toList_fill]
      exact hsent
  | packet header length buffer q _ _ _ _ ht =>
    refine ⟨gone, before, by rw [ht, hps, List.append_assoc], ?_, hsub⟩
    rcases hs.awaiting with hz | ⟨p, hp, -, -⟩
    · have hempty : awaited { n with queue := q } = [] := awaited_of_zero hz
      rw [hempty, ← awaited_of_zero hz]
      exact hsent
    · simp only [awaited, hp, Queue.head?_of_append hp ht] at hsent ⊢
      exact hsent

def Hands (n n' : Node (Station E)) (delivers : Bool) : Prop :=
  ∃ fs, n'.world.handed = n.world.handed ++ fs ∧ (delivers = true →
    ∃ f, fs.getLast? = some f ∧ f.header.control = false ∧ n'.received = f.packet)

omit [SignalSource E] in
theorem respects_handed :
    Respects (fun _ => True) (fun s s' : Station E => s'.handed = s.handed) where
  refl _ := rfl
  trans h h' := h'.trans h
  configure _ _ _ := rfl
  canSend _ := rfl
  transmit _ ht := by
    obtain ⟨site, rfl⟩ := Station.transmit_eq ht
    rfl
  noted _ _ := rfl
  now _ := rfl
  pause _ := rfl

omit [Clock E] in
theorem Hears.hands {delivered : Option UInt8} (h : Hears n delivered n') :
    Hands n n' delivered.isSome := by
  cases h with
  | ignore r w hr =>
    obtain ⟨-, rfl⟩ | ⟨f, rest, -, -, rfl⟩ := Station.receive_cases hr
    · exact ⟨[], (List.append_nil _).symm, nofun⟩
    · exact ⟨[f], rfl, nofun⟩
  | deliver p w hr ha =>
    obtain ⟨f, rest, -, rfl, rfl⟩ := Station.receive_frame hr
    exact ⟨[f], rfl, fun _ => ⟨f, rfl, ha.2, rfl⟩⟩
  | settle p w hr =>
    obtain ⟨f, rest, -, rfl, rfl⟩ := Station.receive_frame hr
    exact ⟨[f], rfl, nofun⟩

omit [Medium E] [Clock E] [SignalSource E] in
theorem Hands.congr {m k : Node (Station E)} {delivers : Bool} (h : Hands m k delivers)
    (hn : m.world.handed = n.world.handed) (hk : n'.world.handed = k.world.handed)
    (hr : n'.received = k.received) : Hands n n' delivers := by
  obtain ⟨fs, hfs, hd⟩ := h
  exact ⟨fs, by rw [hk, hfs, hn], hr ▸ hd⟩

theorem Pass.hands {delivered : Option UInt8} (h : Pass n delivered n') :
    Hands n n' delivered.isSome := by
  have quiet {k k' : Node (Station E)} (he : Errands k k') : k'.world.handed = k.world.handed :=
    respects_handed.errands trivial (.inl trivial) he
  cases h with
  | off => exact ⟨[], (List.append_nil _).symm, nofun⟩
  | on _ hships hhears hremarks hstarts =>
    refine hhears.hands.congr (quiet hships.errands) ?_ ?_
    · rw [respects_handed.starts trivial trivial (.inl trivial) hstarts,
        quiet hremarks.errands]
    · rw [hstarts.received, hremarks.errands.keeps.1]

omit [Medium E] [Clock E] [SignalSource E] in
theorem Hands.trans {m k : Node (Station E)} {delivers : Bool} (h : Hands n m false)
    (h' : Hands m k delivers) : Hands n k delivers := by
  obtain ⟨fs, hfs, -⟩ := h
  obtain ⟨gs, hgs, hd⟩ := h'
  refine ⟨fs ++ gs, by rw [hgs, hfs, List.append_assoc], fun hdel => ?_⟩
  obtain ⟨f, hf, hrest⟩ := hd hdel
  exact ⟨f, by rw [List.getLast?_append, hf]; rfl, hrest⟩

theorem Passes.hands {result : FlushResult} (h : Passes n result n') :
    Hands n n' (Answer.flushed result).module?.isSome := by
  induction h with
  | drained => exact ⟨[], (List.append_nil _).symm, nofun⟩
  | delivered _ hp => exact hp.hands
  | stuck _ hp => exact hp.hands
  | again _ hp _ ih => exact hp.hands.trans (ih.congr rfl rfl rfl)

theorem Flushes.hands {result : FlushResult} (h : Flushes n result n') :
    Hands n n' (Answer.flushed result).module?.isSome := by
  cases h with
  | busy _ hp => exact hp.hands
  | @idle _ delivered _ hp =>
    have hd := hp.hands
    cases delivered <;> exact hd

theorem Performs.hands {c : Command} {a : Answer} (h : Performs n c a n') :
    Hands n n' a.module?.isSome := by
  cases h with
  | poll hp => exact hp.hands
  | flush allowance hf => exact hf.hands
  | errand he hnone hm =>
    have hquiet := respects_handed.errands trivial (.inl trivial) hm
    rw [hnone]
    refine ⟨[], ?_, nofun⟩
    rw [hquiet, he.keeps.1, List.append_nil]

def Unlogged (fs : List Frame) : Prop := ∀ f ∈ fs, f.purpose ≠ .trace

omit [SignalSource E] in
theorem respects_unlogged : Respects (· ≠ .trace)
    (fun s s' : Station E => Unlogged s.outgoing → Unlogged s'.outgoing) where
  refl _ h := h
  trans h h' hu := h' (h hu)
  configure _ _ _ h := h
  canSend _ h := h
  transmit ht hs h := by
    obtain ⟨site, rfl⟩ := Station.transmit_eq hs
    intro f hf
    rcases List.mem_append.1 hf with hf | hf
    · exact h f hf
    · exact List.mem_singleton.1 hf ▸ ht
  noted _ _ h := h
  now _ h := h
  pause _ h := h

theorem Moves.unlogged (hu : n.Untraced) (h : Unlogged n.world.outgoing) (hm : Moves n n') :
    n'.Untraced ∧ Unlogged n'.world.outgoing := by
  induction hm with
  | refl => exact ⟨hu, h⟩
  | tail _ hm ih =>
    refine ⟨ih.1.move hm, ?_⟩
    exact respects_unlogged.move nofun nofun (fun s h => (Station.receive_keeps (s := s) rfl).2 ▸ h)
      (fun _ h => h)
      (.inr ih.1) hm ih.2

end Node

namespace Pair

variable {E : Type} {limit : Nat} {ps : List Packet} {ds : List (List UInt8)} {s s' : Pair E}

/-- `a` accounts for all it sent, and the deliveries are of data frames that were handed over. -/
structure Delivers (limit : Nat) (ps : List Packet) (ds : List (List UInt8)) (s : Pair E) :
    Prop where
  linked : Linked s
  bound : limit = max 1 s.a.settings.maxSends.toNat
  accounts : s.a.Accounts limit ps
  untraced : s.a.Untraced
  unlogged : Node.Unlogged s.course
  payloads : ds.Sublist ((s.b.world.handed.filter (·.purpose == .data)).map (·.payload))

theorem Delivers.fits {f : Frame} (h : Delivers limit ps ds s) (hf : f ∈ s.course)
    (hd : f.purpose = .data) : f.payload.length ≤ maxData := by
  have hsent := List.mem_of_getElem? (h.linked.a.recorded f hf hd)
  have hpay : f.payload ∈ s.a.world.sent.map (·.payload) := List.mem_map_of_mem hsent
  have hle : s.a.sendCount.toNat ≤ limit := h.bound ▸ h.linked.a.sound.sendCount_le
  exact fits_of_mem_allowed ((h.accounts.sublist hle).subset hpay)

theorem Delivers.in_order (h : Delivers limit ps ds s) : InOrder limit ps ds := by
  have hhanded : s.b.world.handed.Sublist s.course := by
    rw [course, List.append_assoc]
    exact List.sublist_append_left ..
  have hle : s.a.sendCount.toNat ≤ limit := h.bound ▸ h.linked.a.sound.sendCount_le
  have hdata : ((s.b.world.handed.filter (·.purpose == .data)).map (·.toTransmission)).Sublist
      (s.a.world.sent.drop 0) := by
    refine sublist_of_numbered (h.linked.a.orderly.sublist hhanded).data
      (fun _ _ => Nat.zero_le _) fun f hf => ?_
    obtain ⟨hf, hd⟩ := List.mem_filter.1 hf
    exact h.linked.a.recorded f (hhanded.subset hf) (by simpa using hd)
  have hpay := hdata.map (·.payload)
  rw [List.map_map, List.drop_zero] at hpay
  exact in_order_of_sublist ((h.payloads.trans hpay).trans (h.accounts.sublist hle))

variable [Medium E] [Clock E] [SignalSource E]

theorem Delivers.left {n : Node (Station E)} {c : Node.Command} {answer : Node.Answer}
    (h : Delivers limit ps ds s) (hc : c.Plain)
    (hr : (Node.perform c).run s.a = .ok (answer, n)) :
    Delivers limit (ps ++ c.entered s.a answer) ds { s with a := n } := by
  have hsound := h.linked.a.sound
  obtain ⟨m, he, hm⟩ := (Node.perform_outcome c hsound.count_zero).of_run_eq hr
  have hset : m.settings = s.a.settings := he.steady.2
  obtain ⟨hworld, htrace, -⟩ := he.keeps
  have hm_untraced : m.Untraced := by
    rw [Node.Untraced, htrace]
    exact h.untraced
  have hm_unlogged : Node.Unlogged m.world.outgoing := by
    rw [hworld]
    exact fun f hf => h.unlogged f (List.mem_append_right _ hf)
  obtain ⟨huntraced, hunlogged⟩ := Node.Moves.unlogged hm_untraced hm_unlogged hm
  refine ⟨h.linked.step (.perform c answer hc hr), ?_, ?_, huntraced, ?_, h.payloads⟩
  · rw [(Node.Moves.steady hm).2, hset]
    exact h.bound
  · exact (h.accounts.enters hsound he).moves (hsound.enters he) (hset ▸ h.bound) hm
  · intro f hf
    rcases List.mem_append.1 hf with hf | hf
    · exact h.unlogged f (List.mem_append_left _ hf)
    · exact hunlogged f hf

theorem Delivers.right {n : Node (Station E)} {c : Node.Command} {answer : Node.Answer}
    (h : Delivers limit ps ds s) (hc : c.Plain)
    (hr : (Node.perform c).run s.b = .ok (answer, n)) :
    Delivers limit ps (ds ++ Node.delivered answer n) { s with b := n } := by
  have hlinked : Linked { s with b := n } :=
    (h.linked.swap.step (.perform (s := s.swap) c answer hc hr)).swap
  obtain ⟨gs, hg⟩ := h.linked.b.perform hc hr
  have hcourse : course { s with b := n } = s.course := by
    rw [course, course, hg.inbound]
  obtain ⟨fs, hfs, hdelivers⟩ :=
    ((Node.perform_performs c h.linked.b.sound.count_zero).of_run_eq hr).2.hands
  refine ⟨hlinked, h.bound, h.accounts, h.untraced, hcourse ▸ h.unlogged, ?_⟩
  show (ds ++ _).Sublist ((n.world.handed.filter _).map _)
  rw [hfs, List.filter_append, List.map_append]
  refine h.payloads.append ?_
  unfold Node.delivered
  split
  · rename_i hdel
    obtain ⟨f, hlast, hctl, hrec⟩ := hdelivers hdel
    have hmem : f ∈ fs := List.mem_of_getLast? hlast
    have hf : f ∈ s.course := by
      rw [← hcourse, course, List.append_assoc]
      exact List.mem_append_left _ (hfs ▸ List.mem_append_right _ hmem)
    have hd : f.purpose = .data := by
      have hplain := h.linked.a.orderly.plain f hf
      have hno := h.unlogged f hf
      unfold Frame.Plain at hplain
      split at hplain
      · assumption
      · simp [hctl] at hplain
      · contradiction
    rw [hrec, f.payload_packet (h.fits hf hd), List.singleton_sublist]
    exact List.mem_map_of_mem (List.mem_filter.2 ⟨hmem, by simp [hd]⟩)
  · exact List.nil_sublist _

omit [Medium E] [Clock E] [SignalSource E] in
theorem Delivers.of_course (h : Delivers limit ps ds s) (hl : Linked s')
    (ha : s'.a = { s.a with world := s'.a.world }) (hsent : s'.a.world.sent = s.a.world.sent)
    (hcourse : s'.course.Sublist s.course) (hh : s'.b.world.handed = s.b.world.handed) :
    Delivers limit ps ds s' := by
  refine ⟨hl, ?_, ?_, ?_, fun f hf => h.unlogged f (hcourse.subset hf), hh ▸ h.payloads⟩
  · rw [ha]
    exact h.bound
  · exact h.accounts.same (by rw [ha]) (by rw [ha]) hsent
  · rw [ha]
    exact h.untraced

theorem Delivers.shift (h : Delivers limit ps ds s) (hs : Shift s s') :
    Delivers limit ps ds s' := by
  have hl := h.linked.step hs.step
  cases hs with
  | @carry f rest ho =>
    refine h.of_course hl rfl rfl ?_ rfl
    simp [course, ho]
  | lose i =>
    exact h.of_course hl rfl rfl ((List.eraseIdx_sublist ..).append_left _) rfl
  | miss i => exact h.of_course hl rfl rfl (List.Sublist.refl _) rfl
  | drift site => exact h.of_course hl rfl rfl (List.Sublist.refl _) rfl

theorem Delivers.shift_back (h : Delivers limit ps ds s) (hs : Shift s.swap s') :
    Delivers limit ps ds s'.swap := by
  have hl := (h.linked.swap.step hs.step).swap
  cases hs with
  | carry ho => exact h.of_course hl rfl rfl (List.Sublist.refl _) rfl
  | lose i => exact h.of_course hl rfl rfl (List.Sublist.refl _) rfl
  | miss i =>
    exact h.of_course hl rfl rfl
      (((List.eraseIdx_sublist ..).append_left _).append_right _) rfl
  | drift site => exact h.of_course hl rfl rfl (List.Sublist.refl _) rfl

theorem Delivers.exchange {s₀ : Pair E} (h : Delivers limit [] [] s₀)
    (run : Exchange s₀ ps ds s) : Delivers limit ps ds s := by
  induction run with
  | start => exact h
  | left c answer _ hc hr ih => exact ih.left hc hr
  | right c answer _ hc hr ih => exact ih.right hc hr
  | shift _ hs ih => exact ih.shift hs
  | shift_back _ hs ih => exact ih.shift_back hs

/-- With the log of `a` off, whatever happens on the link, `b` delivers payloads of packets that
`a` accepted, in the order of acceptance, each packet's at most as often as it may be sent. -/
theorem Exchange.delivers_in_order {left right : E} {a b : Identity}
    {settings settings' : Settings} {capacity capacity' : Nat}
    (run : Exchange (Pair.start left right a b settings settings' capacity capacity') ps ds s)
    (untraced : settings.trace = false) : InOrder (max 1 settings.maxSends.toNat) ps ds := by
  have hstart : Delivers (max 1 settings.maxSends.toNat) [] []
      (Pair.start left right a b settings settings' capacity capacity') := by
    refine ⟨.start .., rfl, ⟨[], [], ?_, rfl, List.nil_sublist _⟩, ⟨untraced, rfl⟩, nofun,
      List.nil_sublist _⟩
    exact (Queue.toList_ofCapacity capacity).symm
  exact (hstart.exchange run).in_order

def patchyDelivery : List (Deed Bench.World ⊕ Deed Bench.World) :=
  [.inl (.perform (.allocate (·.set 0 1))), .inl (.perform (.send 1 true)), .inl .carry,
    .inl (.drift (.scripted 200000 {})), .inl (.perform .poll), .inl .carry,
    .inr (.perform .poll), .inr (.perform .poll), .inr .carry, .inl (.perform .poll),
    .inl (.perform (.allocate (·.set 0 2))), .inl (.perform (.broadcast 1)), .inl (.lose 0),
    .inl (.perform (.allocate (·.set 0 3))), .inl (.perform (.broadcast 1)), .inl .carry,
    .inr (.perform (.flush 2))]

theorem delivers_in_order_of_patchy_link : ∃ r, benchPair.record patchyDelivery = some r ∧
    r.packets.map (·.payload) = [[1], [2], [3]] ∧ r.payloads = [[1], [1], [3]] ∧
    InOrder 8 r.packets r.payloads := by
  have hrun : (benchPair.record patchyDelivery).any (fun r =>
      r.packets.map (·.payload) = [[1], [2], [3]] ∧ r.payloads = [[1], [1], [3]]) = true := by
    decide +kernel
  obtain ⟨r, hr, hd⟩ := (Option.any_eq_true ..).1 hrun
  obtain ⟨hpackets, hpayloads⟩ := of_decide_eq_true hd
  exact ⟨r, hr, hpackets, hpayloads, (Exchange.of_record hr).delivers_in_order rfl⟩

end Pair

end StarNet
