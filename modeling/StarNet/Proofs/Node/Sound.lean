import StarNet.Proofs.Node.Travel

/-!
What holds of every node that was started and run. It is kept by every move, also by moves on
frames that no well-behaved node would send.
-/
namespace StarNet.Node

variable {W : Type}

structure Sound (n : Node W) : Prop where
  fits : ∀ p ∈ n.queue.toList, p.length.toNat ≤ maxData
  notes : n.trace.notes.length ≤ TraceLog.capacity
  /-- A send count belongs to a head packet that still asks for its acknowledgement. -/
  awaiting : n.sendCount = 0 ∨ ∃ p, n.queue.head? = some p ∧ p.header.wantsAck = true ∧
    n.sendCount.toNat < n.settings.maxSends.toNat

theorem Sound.start (w : W) (identity : Identity) (settings : Settings) (capacity : Nat) :
    Sound (start w identity settings capacity) where
  fits := by simp [Node.start]
  notes := Nat.zero_le _
  awaiting := .inl rfl

theorem Sound.count_zero {n : Node W} (h : n.Sound) (hq : n.queue.count = 0) :
    n.sendCount = 0 := by
  rcases h.awaiting with hz | ⟨p, hp, -, -⟩
  · exact hz
  · have : n.queue.toList = [] := List.eq_nil_of_length_eq_zero (by simpa using hq)
    simp [Queue.head?, this] at hp

theorem Sound.congr {n n' : Node W} (h : n.Sound) (hq : n'.queue.toList = n.queue.toList)
    (hc : n'.sendCount = n.sendCount) (hs : n'.settings = n.settings)
    (ht : n'.trace.notes.length ≤ TraceLog.capacity) : n'.Sound where
  fits := hq ▸ h.fits
  notes := ht
  awaiting := by
    rw [hc, hs, Queue.head?, hq]
    exact h.awaiting

theorem Sound.in_world {n : Node W} (h : n.Sound) (w : W) : Sound { n with world := w } :=
  h.congr rfl rfl rfl h.notes

theorem Sound.of_pop {n n' : Node W} (h : n.Sound) (hq : n'.queue = n.queue.pop)
    (hc : n'.sendCount = 0) (ht : n'.trace = n.trace) : n'.Sound where
  fits p hp := by
    rw [hq, Queue.toList_pop] at hp
    exact h.fits p (List.mem_of_mem_tail hp)
  notes := ht ▸ h.notes
  awaiting := .inl hc

theorem notes_push_le {t : TraceLog} (h : t.notes.length ≤ TraceLog.capacity) (code : UInt8) :
    (t.push code).notes.length ≤ TraceLog.capacity := by
  unfold TraceLog.push
  split
  · rename_i hp
    simp only [Bool.and_eq_true, decide_eq_true_eq] at hp
    rw [List.length_append, List.length_singleton]
    exact hp.2
  · exact h

variable [Medium W] [Clock W] [SignalSource W] {n n' : Node W}

omit [Clock W] [SignalSource W] in
theorem Sound.noting {code : UInt8} (h : n.Sound) (hn : Noting code n n') : n'.Sound := by
  have hp := notes_push_le h.notes code
  cases hn with
  | kept => exact h.congr rfl rfl rfl hp
  | held => exact h.congr rfl rfl rfl hp
  | shipped => exact h.congr rfl rfl rfl (Nat.zero_le _)

omit [SignalSource W] in
theorem Sound.launch (h : n.Sound) (hl : Launch n n') : n'.Sound := by
  cases hl with
  | await p w hp ha hs =>
    refine ⟨h.fits, h.notes, .inr ⟨p, hp, ha, ?_⟩⟩
    show (n.sendCount + 1).toNat < n.settings.maxSends.toNat
    rw [toNat_sendCount_add_one hs]
    exact lt_maxSends_of_lastSend hs
  | depart => exact h.of_pop rfl rfl rfl

theorem Sound.move (h : n.Sound) (hm : Move n n') : n'.Sound := by
  cases hm with
  | pause => exact h.in_world _
  | configure => exact h.in_world _
  | note code hn => exact h.noting hn
  | refuse => exact h.in_world _
  | read => exact h.in_world _
  | ship => exact h.congr rfl rfl rfl (Nat.zero_le _)
  | ignore => exact h.congr rfl rfl rfl h.notes
  | deliver => exact h.congr rfl rfl rfl h.notes
  | settle => exact h.of_pop rfl rfl rfl
  | answer => exact h.congr rfl rfl rfl h.notes
  | first _ _ hl => exact (h.in_world _).launch hl
  | again deadline _ _ _ _ h₁ h₂ hl => exact (((h.in_world _).noting h₁).noting h₂).launch hl

theorem Sound.moves (h : n.Sound) (hm : Moves n n') : n'.Sound := by
  induction hm with
  | refl => exact h
  | tail _ hm ih => exact ih.move hm

omit [SignalSource W] in
theorem Launch.queue (hl : Launch n n') :
    n'.queue = n.queue ∨ ∃ p, n.queue.head? = some p ∧ n'.queue = n.queue.pop := by
  cases hl with
  | await => exact .inl rfl
  | depart p w hp => exact .inr ⟨p, hp, rfl⟩

theorem Move.queue (hm : Move n n') :
    n'.queue = n.queue ∨ ∃ p, n.queue.head? = some p ∧ n'.queue = n.queue.pop := by
  cases hm with
  | note code hn =>
    obtain ⟨w, t, rfl⟩ := hn.noted
    exact .inl rfl
  | settle p w _ hs =>
    obtain ⟨q, hq⟩ := Queue.exists_head hs.2.2.2.2.1
    exact .inr ⟨q, hq, rfl⟩
  | first _ _ hl => exact hl.queue
  | again deadline _ _ _ _ h₁ h₂ hl =>
    obtain ⟨w, t, rfl⟩ := h₁.noted.trans h₂.noted
    exact hl.queue
  | _ => exact .inl rfl

omit [SignalSource W] in
theorem Launch.steady (hl : Launch n n') :
    n'.identity = n.identity ∧ n'.settings = n.settings := by
  cases hl <;> exact ⟨rfl, rfl⟩

theorem Move.steady (hm : Move n n') : n'.identity = n.identity ∧ n'.settings = n.settings := by
  cases hm with
  | note code hn =>
    obtain ⟨w, t, rfl⟩ := hn.noted
    exact ⟨rfl, rfl⟩
  | first _ _ hl => exact hl.steady
  | again deadline _ _ _ _ h₁ h₂ hl =>
    obtain ⟨w, t, rfl⟩ := h₁.noted.trans h₂.noted
    exact hl.steady
  | _ => exact ⟨rfl, rfl⟩

omit [Medium W] [Clock W] [SignalSource W] in
theorem Enters.steady {c : Command} {ps : List Packet} (he : Enters c n ps n') :
    n'.identity = n.identity ∧ n'.settings = n.settings := by
  cases he <;> exact ⟨rfl, rfl⟩

omit [Medium W] [Clock W] [SignalSource W] in
theorem Sound.enters {c : Command} {ps : List Packet} (h : n.Sound) (he : Enters c n ps n') :
    n'.Sound := by
  cases he with
  | nothing => exact h
  | fill => exact h.congr (Queue.toList_fill ..) rfl rfl h.notes
  | packet header length buffer q _ _ _ hl ht =>
    refine ⟨?_, h.notes, ?_⟩
    · intro p hp
      rw [ht, List.mem_append, List.mem_singleton] at hp
      rcases hp with hp | rfl
      · exact h.fits p hp
      · exact hl
    · rcases h.awaiting with hz | ⟨p, hp, ha⟩
      · exact .inl hz
      · exact .inr ⟨p, Queue.head?_of_append hp ht, ha⟩

end StarNet.Node
