import StarNet.Proofs.Node.Safety
import StarNet.Proofs.Node.Spacing

/-!
Commits are all or nothing. A packet that is refused leaves no trace: the node stays as it was, down
to the free slots, and the medium is not even asked. A packet that is taken goes behind the others.
Alone in the queue it goes out at once if the medium is free, and leaves if it asks for nothing.
-/
namespace StarNet.Node

variable {W : Type}

/-- What a commit does with a packet that the queue takes. Notes may ask the medium too, and ship
the log. -/
inductive Commits (p : Packet) (n n' : Node (Recorded W)) : Prop where
  | behind (notes : List Event) : n.queue.toList ≠ [] →
      n'.world.log = n.world.log ++ notes → (∀ e ∈ notes, e.Apart) →
      n'.queue.toList = n.queue.toList ++ [p] → Commits p n n'
  | held (notes notes' : List Event) : n.queue.toList = [] →
      n'.world.log = n.world.log ++ (notes ++ .asked false :: notes') →
      (∀ e ∈ notes ++ notes', e.Apart) → n'.queue.toList = [p] → Commits p n n'
  /-- It stays at the head while its acknowledgement is awaited. -/
  | taken (notes rest : List Event) (header : Header) : n.queue.toList = [] →
      header = (if n.settings.maxSends.toNat ≤ 1 then p.header.withoutAck else p.header) →
      n'.world.log = n.world.log ++
        (notes ++ .asked true :: .sent ⟨.data, header, p.payload⟩ :: rest) →
      (∀ e ∈ notes, e.Apart) → dataSent rest = [] →
      n'.queue.toList = (if header.wantsAck then [p] else []) → Commits p n n'

variable [Medium W] [Clock W] [SignalSource W] {n n' : Node (Recorded W)} {q : Queue} {p : Packet}

omit [SignalSource W] in
theorem Launch.queue_of_head {n n' : Node W} (hl : Launch n n') (hp : n.queue.head? = some p) :
    n'.queue = if (n.headFrame p).header.wantsAck then n.queue else n.queue.pop := by
  cases hl with
  | await r w hr ha hs =>
    obtain rfl : p = r := Option.some.inj (hp.symm.trans hr)
    have hframe : (n.headFrame p).header.wantsAck = true := by
      rw [headFrame, if_neg (by simp [hs])]
      exact ha
    rw [if_pos hframe]
  | depart r w hr hlast =>
    obtain rfl : p = r := Option.some.inj (hp.symm.trans hr)
    rw [headFrame_of_last hlast, if_neg (by simp [Header.wantsAck_withoutAck])]

omit [SignalSource W] in
theorem Launches.sent_alone (hl : Launches n n') (hzero : n.sendCount = 0)
    (hlist : n.queue.toList = [p]) : ∃ header rest,
      header = (if n.settings.maxSends.toNat ≤ 1 then p.header.withoutAck else p.header) ∧
      n'.world.log = n.world.log ++ .sent ⟨.data, header, p.payload⟩ :: rest ∧
      dataSent rest = [] ∧ n'.queue.toList = if header.wantsAck then [p] else [] := by
  obtain ⟨m, hlaunch, hremarks⟩ := hl
  have hhead : n.queue.head? = some p := by rw [Queue.head?, hlist, List.head?_cons]
  have hframe : (n.headFrame p).header =
      if n.settings.maxSends.toNat ≤ 1 then p.header.withoutAck else p.header := by
    simp [headFrame, lastSend, hzero]
  obtain ⟨r, reads, hr, hlog, hreads⟩ := hlaunch.sent
  obtain rfl : p = r := Option.some.inj (hhead.symm.trans hr)
  obtain ⟨notes, hlog', hnotes⟩ := hremarks.apart
  refine ⟨(n.headFrame p).header, reads ++ notes, hframe, ?_, ?_, ?_⟩
  · rw [hlog', hlog, List.append_assoc]
    rfl
  · have hquiet : dataSent reads = [] := by
      refine List.filterMap_eq_nil_iff.2 fun e he => ?_
      obtain ⟨time, rfl⟩ := hreads e he
      rfl
    rw [dataSent_append, hquiet, dataSent_apart hnotes]
    rfl
  · obtain ⟨w, t, rfl⟩ := hremarks.noted
    have hqueue := hlaunch.queue_of_head hhead
    simp only [hqueue]
    split
    · exact hlist
    · rw [Queue.toList_pop, hlist]
      rfl

omit [SignalSource W] in
theorem Commits.of_dispatch {m : Node (Recorded W)} (hs : n.queue.count = 0 → n.sendCount = 0)
    (hq : q.toList = n.queue.toList ++ [p])
    (hm : Noting Mark.queued.code { n with queue := q } m) (hd : Dispatches m n') :
    Commits p n n' := by
  obtain ⟨notes, hlog, hnotes⟩ := hm.apart
  obtain ⟨w, t, rfl⟩ := hm.noted
  have hlog : w.log = n.world.log ++ notes := hlog
  have hcount : q.count = n.queue.toList.length + 1 := by
    rw [← Queue.length_toList, hq, List.length_append, List.length_singleton]
  have alone (hone : q.count = 1) : n.queue.toList = [] ∧ q.toList = [p] ∧ n.sendCount = 0 := by
    have hnil : n.queue.toList = [] := List.eq_nil_of_length_eq_zero (by omega)
    refine ⟨hnil, by rw [hq, hnil, List.nil_append], hs ?_⟩
    rw [← Queue.length_toList, hnil, List.length_nil]
  cases hd with
  | behind hmany =>
    refine .behind notes ?_ hlog hnotes hq
    intro hnil
    exact hmany (by rw [hcount, hnil, List.length_nil])
  | held hone hf hn =>
    obtain ⟨hnil, hlist, -⟩ := alone hone
    obtain ⟨notes', hlog', hnotes'⟩ := hn.apart
    refine .held notes notes' hnil ?_ (List.forall_mem_append.2 ⟨hnotes, hnotes'⟩) ?_
    · rw [hlog', Recorded.log_canSend, hf, hlog, List.append_assoc, List.append_assoc]
      rfl
    · obtain ⟨w', t', rfl⟩ := hn.noted
      exact hlist
  | goes hone hf hl =>
    obtain ⟨hnil, hlist, hzero⟩ := alone hone
    obtain ⟨header, rest, hheader, hlog', hrest, hleft⟩ := hl.sent_alone hzero hlist
    refine .taken notes rest header hnil hheader ?_ hnotes hrest hleft
    rw [hlog', Recorded.log_canSend, hf, hlog]
    simp only [List.append_assoc]
    rfl

theorem perform_offer {n : Node W} {c : Command} {header : Header} {length : UInt8}
    (hc : c.offer? n = some (header, length)) :
    (perform c).run n = (do return Answer.queued (← sendRaw length header)).run n := by
  cases c with
  | send | broadcast | sendRaw =>
    cases hc
    rfl
  | _ => cases hc

/-- In every run a command that offers a packet is refused by a disabled medium, else by a full
queue, else for the length of the packet, and nothing has happened then. Otherwise the packet of the
first free slot is queued, and sent at once if the queue was empty and the medium is free. -/
theorem Execution.commit_all_or_nothing {w : W} {identity : Identity} {settings : Settings}
    {capacity : Nat} {turns : List (Turn W)}
    (run : Execution (startRecorded w identity settings capacity) turns n) {c : Command}
    {header : Header} {length : UInt8} (hc : c.offer? n = some (header, length)) :
    (n.enabled = false → (perform c).run n = .ok (.queued (.error .disabled), n)) ∧
    (n.enabled = true →
      (n.queue.toList.length = capacity →
        (perform c).run n = .ok (.queued (.error .queueFull), n)) ∧
      (n.queue.toList.length ≠ capacity →
        (maxData < length.toNat → (perform c).run n = .ok (.queued (.error .tooLong), n)) ∧
        (length.toNat ≤ maxData → ∃ buffer, n.queue.allocate? = some buffer ∧
          ((∃ n', (perform c).run n = .ok (.queued (.ok ()), n') ∧
              Commits ⟨header, length, buffer⟩ n n') ∨
            ∃ f, (perform c).run n = .error f ∧ MediumFails W f)))) := by
  have hstart : (startRecorded w identity settings capacity).Sound := .start ..
  have hcapacity : n.queue.slots.length = capacity := by
    rw [run.length_slots hstart]
    exact List.length_replicate
  have refused {e : SendError} (hr : (sendRaw length header).run n = .ok (.error e, n)) :
      (perform c).run n = .ok (.queued (.error e), n) := by
    rw [perform_offer hc, run_bind_ok hr]
    rfl
  refine ⟨fun he => refused (sendRaw_disabled he), fun he => ⟨fun hfull => ?_, fun hroom => ?_⟩⟩
  · have hfree : n.queue.free = [] := n.queue.free_eq_nil_iff.2 (hfull.trans hcapacity.symm)
    exact refused (sendRaw_refused he (Queue.push_of_full hfree))
  obtain ⟨slot, spare, hfree⟩ : ∃ slot spare, n.queue.free = slot :: spare := by
    refine List.exists_cons_of_ne_nil fun hnil => hroom ?_
    rw [n.queue.free_eq_nil_iff.1 hnil, hcapacity]
  refine ⟨fun hlong => refused (sendRaw_refused he (Queue.push_of_too_long hfree hlong)), ?_⟩
  intro hfit
  obtain ⟨q, hpush, hlist, -⟩ := Queue.push_of_fits header hfree hfit
  refine ⟨slot.buffer, by simp [Queue.allocate?_eq_free, hfree], ?_⟩
  have hsend := sendRaw_accepted he hpush
  rw [perform_offer hc]
  cases hrun : (sendRaw length header).run n with
  | ok r =>
    obtain ⟨a, n'⟩ := r
    obtain ⟨rfl, m, hm, hd⟩ := hsend.of_run_eq hrun
    refine .inl ⟨n', ?_, .of_dispatch (run.sound hstart).count_zero hlist hm hd⟩
    rw [run_bind_ok hrun]
    rfl
  | error f =>
    refine .inr ⟨f, ?_, (hsend.of_run_error hrun).of_recorded⟩
    rw [StateT.run_bind, hrun]
    rfl

def crowdedQueue : List (Happening Bench.World) :=
  [.command (.send 1 true), .command (.broadcast 2), .command (.sendRaw 66 ⟨0x85⟩)]

/-- A full queue comes before a length that does not fit. And a packet that asks for an
acknowledgement goes out and leaves at once if there are no retries. -/
theorem commit_all_or_nothing_of_crowded_queue :
    (∃ r, play (benchStart {}) crowdedQueue = some r ∧
      (perform (.send 67 true)).run r.2 = .ok (.queued (.error .queueFull), r.2)) ∧
    ∃ r n' p, play (benchStart { maxSends := 1 }) [.command (.allocate (·.set 0 7))] = some r ∧
      (perform (.send 1 true)).run r.2 = .ok (.queued (.ok ()), n') ∧ p.payload = [7] ∧
      Commits p r.2 n' := by
  constructor
  · have hrun : (play (benchStart {}) crowdedQueue).any
        (fun r => r.2.enabled = true ∧ r.2.queue.toList.length = 3) = true := by
      decide +kernel
    obtain ⟨r, hr, hd⟩ := (Option.any_eq_true ..).1 hrun
    obtain ⟨he, hfull⟩ := of_decide_eq_true hd
    have hc : Command.offer? r.2 (.send 67 true) = some (_, 67) := rfl
    exact ⟨r, hr, (((Execution.of_play hr).commit_all_or_nothing hc).2 he).1 hfull⟩
  · have hrun : (play (benchStart { maxSends := 1 }) [.command (.allocate (·.set 0 7))]).any
        (fun r => r.2.enabled = true ∧ r.2.queue.toList.length ≠ 3 ∧
          r.2.queue.allocate? = some (Buffer.zero.set 0 7) ∧
          ((perform (.send 1 true)).run r.2).toOption.isSome = true) = true := by
      decide +kernel
    obtain ⟨r, hr, hd⟩ := (Option.any_eq_true ..).1 hrun
    obtain ⟨he, hroom, hshown, hends⟩ := of_decide_eq_true hd
    have hc : Command.offer? r.2 (.send 1 true) = some (_, 1) := rfl
    have hall := ((Execution.of_play hr).commit_all_or_nothing hc).2 he
    obtain ⟨buffer, hbuffer, ⟨n', hsent, hcommits⟩ | ⟨f, hf, -⟩⟩ :=
      (hall.2 hroom).2 (by decide : (1 : UInt8).toNat ≤ maxData)
    · obtain rfl : buffer = Buffer.zero.set 0 7 := Option.some.inj (hbuffer.symm.trans hshown)
      exact ⟨r, n', _, hr, hsent, rfl, hcommits⟩
    · rw [hf] at hends
      cases hends

end StarNet.Node
