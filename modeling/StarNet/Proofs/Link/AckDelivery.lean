import StarNet.Bench.World
import StarNet.Proofs.Link.Pair

/-!
What an acknowledgement means. It names nobody and nothing but a node, so it settles whatever packet
is then at the head. It always answers a transmission that the peer was handed, and no two answer
the same one; but the transmission may have been a packet's before. It is the head packet's if
nothing of the packets before it was left under way at some moment after their last transmission.
-/
namespace StarNet.Pair

variable {E : Type}

/-- All transmissions of `a` numbered below `j` have been made, and none that asks for an
acknowledgement is left under way, nor any acknowledgement of one. -/
structure Clean (j : Nat) (s : Pair E) : Prop where
  made : j ≤ s.a.world.sent.length
  coming : ∀ f ∈ s.a.world.outgoing, f.asks = true → j ≤ f.number
  clear : Node.Clear j s.b
  returning : ∀ f ∈ s.a.world.incoming ++ s.b.world.outgoing, f.purpose = .ack → j ≤ f.number

variable [Medium E] [Clock E] [SignalSource E] {s s' : Pair E} {j : Nat}

theorem Clean.step_left (h : Clean j s) (hl : Linked s) (hs : Step s s') : Clean j s' := by
  cases hs with
  | perform c answer hc hr =>
    obtain ⟨gs, hg⟩ := hl.a.perform hc hr
    refine ⟨Nat.le_trans h.made hg.grows, ?_, h.clear, ?_⟩
    · intro f hf ha
      rw [hg.outgoing] at hf
      rcases List.mem_append.1 hf with hf | hf
      · exact h.coming f hf ha
      · exact Nat.le_trans h.made (hg.later f hf (Frame.purpose_of_asks ha))
    · intro f hf hack
      rcases List.mem_append.1 hf with hf | hf
      · exact h.returning f (List.mem_append_left _ (hg.incoming.subset hf)) hack
      · exact h.returning f (List.mem_append_right _ hf) hack
  | @carry f rest ho =>
    refine ⟨h.made, ?_, ⟨?_, h.clear.owing⟩, h.returning⟩
    · intro g hg
      exact h.coming g (ho ▸ List.mem_cons_of_mem f hg)
    · intro g hg
      rcases List.mem_append.1 hg with hg | hg
      · exact h.clear.incoming g hg
      · exact h.coming g (by rw [ho, List.mem_singleton.1 hg]; exact List.mem_cons_self)
  | lose i =>
    exact ⟨h.made, fun f hf => h.coming f ((List.eraseIdx_sublist ..).subset hf), h.clear,
      h.returning⟩
  | miss i =>
    have hsub := (List.eraseIdx_sublist s.a.world.incoming i).append_right s.b.world.outgoing
    exact ⟨h.made, h.coming, h.clear, fun f hf => h.returning f (hsub.subset hf)⟩
  | drift site => exact ⟨h.made, h.coming, h.clear, h.returning⟩

theorem Clean.step_right (h : Clean j s) (hl : Linked s) (hs : Step s.swap s') :
    Clean j s'.swap := by
  cases hs with
  | perform c answer hc hr =>
    obtain ⟨gs, hg⟩ := hl.b.perform hc hr
    obtain ⟨hclear, hacks⟩ := hg.clear j h.clear
    refine ⟨h.made, h.coming, hclear, ?_⟩
    intro f hf hack
    rcases List.mem_append.1 hf with hf | hf
    · exact h.returning f (List.mem_append_left _ hf) hack
    · have hf : f ∈ s.b.world.outgoing ++ gs := hg.outgoing ▸ hf
      rcases List.mem_append.1 hf with hf | hf
      · exact h.returning f (List.mem_append_right _ hf) hack
      · exact hacks f hf hack
  | @carry f rest ho =>
    have ho : s.b.world.outgoing = f :: rest := ho
    refine ⟨h.made, h.coming, ⟨h.clear.incoming, h.clear.owing⟩, ?_⟩
    intro g hg
    apply h.returning g
    rw [ho]
    simpa [swap, or_assoc] using hg
  | lose i =>
    have hsub := (List.eraseIdx_sublist s.b.world.outgoing i).append_left s.a.world.incoming
    exact ⟨h.made, h.coming, ⟨h.clear.incoming, h.clear.owing⟩,
      fun f hf => h.returning f (hsub.subset hf)⟩
  | miss i =>
    refine ⟨h.made, h.coming, ⟨?_, h.clear.owing⟩, h.returning⟩
    intro f hf
    exact h.clear.incoming f ((List.eraseIdx_sublist ..).subset hf)
  | drift site => exact ⟨h.made, h.coming, ⟨h.clear.incoming, h.clear.owing⟩, h.returning⟩

theorem Clean.runs (h : Clean j s) (hl : Linked s) (hs : Runs s s') : Clean j s' := by
  induction hs with
  | refl => exact h
  | tail hprior hs ih =>
    cases hs with
    | left hs => exact ih.step_left (hl.runs hprior) hs
    | right hs => exact ih.step_right (hl.runs hprior) hs

omit [Medium E] [Clock E] [SignalSource E] in
theorem head_of_first_le {n : Node (Station E)} {fs : List Frame} {g : Frame}
    (h : n.Speaks fs) (hg : g ∈ fs) (hd : g.purpose = .data) (hle : n.first ≤ g.number) :
    ∃ p, n.queue.head? = some p ∧ g.header = p.header ∧ g.payload = p.payload := by
  have hrec := h.recorded g hg hd
  have hlt := (List.getElem?_eq_some_iff.1 hrec).1
  unfold Node.first at hle
  rcases h.sound.awaiting with hz | ⟨p, hp, -, -⟩
  · simp only [hz, UInt8.toNat_zero, Nat.sub_zero] at hle
    omega
  obtain ⟨earlier, hsent⟩ := h.latest
  simp only [Node.awaited, hp] at hsent
  have hlen := congrArg List.length hsent
  simp only [List.length_append, List.length_replicate] at hlen
  rw [← hsent, List.getElem?_append_right (by omega), List.getElem?_replicate] at hrec
  split at hrec
  · have ht : _ = g.toTransmission := Option.some.inj hrec
    exact ⟨p, hp, by rw [← ht], by rw [← ht]⟩
  · cases hrec

/-- Whenever an acknowledgement settles the head packet of `a`, at any point `k` in the course of
an operation, `b` was handed the data transmission that it answers, which no acknowledgement
handed to `a` before has answered. If that transmission was made since the packet became the head,
it is one of this packet; and so it is if nothing of the packets before was left under way once. -/
theorem ack_answers_handed_transmission {left right : E} {a b : Identity}
    {settings settings' : Settings} {capacity capacity' : Nat} {c : Node.Command}
    {ps : List Packet} {m k : Node (Station E)} {f : Frame} {rest : List Frame}
    (run : Runs (start left right a b settings settings' capacity capacity') s) (hc : c.Plain)
    (enters : Node.Enters c s.a ps m) (moves : Node.Moves m k)
    (incoming : k.world.incoming = f :: rest) (settles : k.Settles f.header) :
    ∃ g ∈ s.b.world.handed, g.asks = true ∧ g.number = f.number ∧
      (∀ e ∈ k.world.handed, e.purpose = .ack → e.number < g.number) ∧
      (k.first ≤ g.number →
        ∃ p, k.queue.head? = some p ∧ g.header = p.header ∧ g.payload = p.payload) ∧
      ∀ s₁, Runs (start left right a b settings settings' capacity capacity') s₁ → Runs s₁ s →
        Clean k.first s₁ → k.first ≤ g.number := by
  have hstart : Linked (start left right a b settings settings' capacity capacity') := .start ..
  have hl := hstart.runs run
  have henters := hl.a.enters hc enters
  obtain ⟨gs, hmoves⟩ := henters.speaks.moves moves
  have hemits := henters.trans hmoves
  have hf : f ∈ k.world.incoming := incoming ▸ List.mem_cons_self
  have hfs : f ∈ s.a.world.incoming := hemits.incoming.subset hf
  have hack : f.purpose = .ack :=
    (hl.a.inbound.plain f (List.mem_append_right _ hfs)).purpose_of_control settles.2.1
  have hcourse : f ∈ s.swap.course :=
    List.mem_append_left _ (List.mem_append_right _ hfs)
  obtain ⟨⟨g, hg, hasks, hnumber⟩, -, -⟩ := hl.b.answered f hcourse hack
  refine ⟨g, hg, hasks, hnumber, ?_, ?_, ?_⟩
  · intro e he hea
    rw [hnumber]
    exact hemits.speaks.inbound.lt_of_append he hf (hea.trans hack.symm) (by simp [hea])
  · intro hle
    have hgc : g ∈ s.course := List.mem_append_left _ (List.mem_append_left _ hg)
    exact head_of_first_le hemits.speaks (List.mem_append_left _ hgc)
      (Frame.purpose_of_asks hasks) hle
  · intro s₁ run₁ later hclean
    rw [hnumber]
    have hclean := hclean.runs (hstart.runs run₁) later
    exact hclean.returning f (List.mem_append_left _ hfs) hack

def benchPair : Pair Bench.World :=
  start (.scripted 0 {}) (.scripted 0 {}) { node := ⟨2, by decide⟩ } {} {} {} 3 3

def promptAnswer : List (Deed Bench.World ⊕ Deed Bench.World) :=
  [.inl (.perform (.allocate (·.set 0 1))), .inl (.perform (.send 1 true)), .inl .carry,
    .inr (.perform .poll), .inr .carry]

theorem ack_answers_packet_sent_once : ∃ s, benchPair.play promptAnswer = some s ∧
    ∃ g ∈ s.b.world.handed, ∃ p, s.a.queue.head? = some p ∧ g.payload = p.payload := by
  have hrun : (benchPair.play promptAnswer).any (fun s => s.a.first = 0 ∧
      ∃ f ∈ s.a.world.incoming.head?, s.a.Settles f.header) = true := by
    decide +kernel
  obtain ⟨s, hs, hd⟩ := (Option.any_eq_true ..).1 hrun
  obtain ⟨hfirst, f, hf, hsettles⟩ := of_decide_eq_true hd
  obtain ⟨rest, hincoming⟩ := List.head?_eq_some_iff.1 (Option.mem_def.1 hf)
  have run : Runs benchPair s := .of_play hs
  obtain ⟨g, hg, -, -, -, hpacket, -⟩ := ack_answers_handed_transmission run
    (c := .poll) trivial (.nothing s.a) .refl hincoming hsettles
  obtain ⟨p, hp, -, hpay⟩ := hpacket (by rw [hfirst]; exact Nat.zero_le _)
  exact ⟨s, hs, g, hg, p, hp, hpay⟩

def lateAnswer : List (Deed Bench.World ⊕ Deed Bench.World) :=
  [.inl (.perform (.allocate (·.set 0 1))), .inl (.perform (.send 1 true)), .inl .carry,
    .inl (.drift (.scripted 200000 {})), .inl (.perform .poll), .inr (.perform .poll),
    .inl (.perform (.allocate (·.set 0 2))), .inl (.perform (.send 1 true)), .inl .carry,
    .inr .carry, .inl (.perform .poll), .inr (.perform .poll), .inl (.lose 0), .inr .carry]

/-- The second packet leaves the queue by a poll, though nothing of it was handed over. -/
theorem ack_settles_lost_packet : ∃ s, Runs benchPair s ∧
    s.a.queue.toList.map (·.payload) = [[2]] ∧
    (∃ f ∈ s.a.world.incoming.head?, s.a.Settles f.header) ∧
    (Node.nodeAfter .poll s.a).queue.isEmpty = true ∧
    s.b.world.handed.map (·.payload) = [[1], [1]] := by
  have hrun : (benchPair.play lateAnswer).any (fun s =>
      s.a.queue.toList.map (·.payload) = [[2]] ∧
      (∃ f ∈ s.a.world.incoming.head?, s.a.Settles f.header) ∧
      (Node.nodeAfter .poll s.a).queue.isEmpty = true ∧
      s.b.world.handed.map (·.payload) = [[1], [1]]) = true := by
    decide +kernel
  obtain ⟨s, hs, hd⟩ := (Option.any_eq_true ..).1 hrun
  exact ⟨s, .of_play hs, of_decide_eq_true hd⟩

end StarNet.Pair
