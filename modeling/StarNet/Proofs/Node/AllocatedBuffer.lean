import StarNet.Proofs.Node.Execution

/-!
What becomes of an allocated buffer. It is the buffer of the first free slot, and a commit takes the
first free slot too; but a packet that leaves the queue in between makes its own slot the first
free one. So the bytes written are sent only if no packet has left since; otherwise the bytes of the
last one that left are sent once more.
-/
namespace StarNet.Node

variable {W : Type}

/-- A turn that neither allocates nor puts a packet into the queue. -/
def Turn.Idle (t : Turn W) : Prop := t.entered = [] ∧ ∀ change, t.command ≠ .allocate change

/-- The packets of `n` that have left, and what the first free slot shows now that `n` showed
`buffer` there. -/
def Left (n : Node W) (buffer : Buffer) (departed : List Packet) (n' : Node W) : Prop :=
  n.queue.toList = departed ++ n'.queue.toList ∧
    n'.queue.allocate? = some ((departed.getLast?.map (·.buffer)).getD buffer)

theorem Left.congr {n n₁ n₂ : Node W} {buffer : Buffer} {departed : List Packet}
    (h : n.Left buffer departed n₁) (hq : n₂.queue = n₁.queue) : n.Left buffer departed n₂ := by
  unfold Left
  rw [hq]
  exact h

theorem Left.pop {n n₁ n₂ : Node W} {buffer : Buffer} {departed : List Packet} {p : Packet}
    (h : n.Left buffer departed n₁) (hp : n₁.queue.head? = some p)
    (hq : n₂.queue = n₁.queue.pop) : n.Left buffer (departed ++ [p]) n₂ := by
  constructor
  · rw [h.1, hq, Queue.toList_pop, Queue.toList_of_head hp, List.append_assoc]
    rfl
  · rw [hq, Queue.allocate?_eq_free, Queue.free_pop hp]
    simp

variable [Medium W] [Clock W] [SignalSource W]

theorem Left.move {n n₁ n₂ : Node W} {buffer : Buffer} {departed : List Packet}
    (h : n.Left buffer departed n₁) (hm : Move n₁ n₂) :
    ∃ departed, n.Left buffer departed n₂ := by
  rcases hm.queue with hq | ⟨p, hp, hq⟩
  · exact ⟨departed, h.congr hq⟩
  · exact ⟨departed ++ [p], h.pop hp hq⟩

theorem Left.moves {n n₁ n₂ : Node W} {buffer : Buffer} {departed : List Packet}
    (h : n.Left buffer departed n₁) (hm : Moves n₁ n₂) :
    ∃ departed, n.Left buffer departed n₂ := by
  induction hm with
  | refl => exact ⟨departed, h⟩
  | tail _ hm ih =>
    obtain ⟨departed, h⟩ := ih
    exact h.move hm

/-- While a run is idle, packets leave but nothing else happens to the queue. -/
theorem Execution.left {n n' : Node (Recorded W)} {turns : List (Turn W)} {buffer : Buffer}
    (run : Execution n turns n') (hs : n.Sound) (hb : n.queue.allocate? = some buffer)
    (idle : ∀ t ∈ turns, t.Idle) : ∃ departed, n.Left buffer departed n' := by
  induction run with
  | start => exact ⟨[], rfl, hb⟩
  | turn c a prior hr ih =>
    obtain ⟨departed, h⟩ := ih fun t ht => idle t (List.mem_append_left _ ht)
    obtain ⟨hnone, hfill⟩ := idle _ (List.mem_append_right _ (List.mem_singleton_self _))
    obtain ⟨m, he, hm⟩ := (perform_outcome c (prior.sound hs).count_zero).of_run_eq hr
    rw [show c.entered _ a = [] from hnone] at he
    cases he with
    | nothing => exact h.moves hm
    | fill change hc => exact absurd hc (hfill change)
  | drift w prior ih =>
    obtain ⟨departed, h⟩ := ih idle
    exact ⟨departed, h.congr rfl⟩

omit [Clock W] [SignalSource W] in
theorem allocate_outcome (n : Node W) (change : Buffer → Buffer) :
    Outcome (allocate change) n (fun shown? n' => ∀ shown, shown? = some shown →
      n.queue.allocate? = some shown ∧ n' = { n with queue := n.queue.fill change })
      fun _ => False := by
  unfold allocate
  rw [outcome_bind, outcome_get]
  split
  · rw [outcome_bind, outcome_set]
    exact fun shown hb => ⟨hb, rfl⟩
  · exact fun shown hb => nomatch hb

theorem allocated_buffer_shown {n n' : Node W} {change : Buffer → Buffer} {shown : Buffer}
    (hr : (perform (.allocate change)).run n = .ok (.allocated (some shown), n')) :
    n'.queue.allocate? = some (change shown) := by
  have h : Outcome (perform (.allocate change)) n (fun a n' => ∀ shown,
      a = .allocated (some shown) → n'.queue.allocate? = some (change shown))
      fun _ => False := by
    unfold perform
    rw [outcome_bind]
    refine Outcome.imp (allocate_outcome n change) ?_ fun _ h => h
    intro shown? n' _ h shown hb
    obtain ⟨hb, rfl⟩ := h shown (by simpa using hb)
    rw [Queue.allocate?_fill, hb, Option.map_some]
  exact h.of_run_eq hr shown rfl

/-- A buffer is allocated and changed, and committed after an idle run. Its bytes are sent if no
packet has left since. Otherwise the bytes of the last packet that left are sent. -/
theorem Execution.allocated_buffer_sent {w : W} {identity : Identity} {settings : Settings}
    {capacity : Nat} {turns between : List (Turn W)} {n n₁ n₂ n₃ : Node (Recorded W)}
    {change : Buffer → Buffer} {shown : Buffer} {c : Command} {header : Header} {length : UInt8}
    (run : Execution (startRecorded w identity settings capacity) turns n)
    (hallocate : (perform (.allocate change)).run n = .ok (.allocated (some shown), n₁))
    (idle : Execution n₁ between n₂) (hidle : ∀ t ∈ between, t.Idle)
    (hoffer : c.offer? n₂ = some (header, length))
    (hcommit : (perform c).run n₂ = .ok (.queued (.ok ()), n₃)) :
    ∃ departed p m, n₁.queue.toList = departed ++ n₂.queue.toList ∧
      c.entered n₂ (.queued (.ok ())) = [p] ∧ Enters c n₂ [p] m ∧ Moves m n₃ ∧
      p.payload =
        ((departed.getLast?.map (·.buffer)).getD (change shown)).bytes.take length.toNat ∧
      (p.payload = (change shown).bytes.take length.toNat ↔ ∀ q, departed.getLast? = some q →
        q.buffer.bytes.take length.toNat = (change shown).bytes.take length.toNat) := by
  have hs₁ : n₁.Sound := (run.turn (.allocate change) _ hallocate).sound (.start ..)
  have hs₂ : n₂.Sound := idle.sound hs₁
  obtain ⟨departed, hlist, hb⟩ := idle.left hs₁ (allocated_buffer_shown hallocate) hidle
  obtain ⟨m, he, hm⟩ := (perform_outcome c hs₂.count_zero).of_run_eq hcommit
  have hentered : c.entered n₂ (.queued (.ok ())) =
      [⟨header, length, (departed.getLast?.map (·.buffer)).getD (change shown)⟩] := by
    simp only [Command.entered, hoffer, hb]
  refine ⟨departed, _, m, hlist, hentered, hentered ▸ he, hm, rfl, ?_⟩
  cases departed.getLast? with
  | none => exact iff_of_true rfl (by simp)
  | some q => exact ⟨fun h r hr => Option.some.inj hr ▸ h, fun h => h q rfl⟩

def written : Node (Recorded Bench.World) :=
  nodeAfter (.allocate (·.set 0 7)) (benchStart {})

theorem allocated_buffer_sent_after_poll : ∃ p,
    Command.entered (nodeAfter .poll written) (.broadcast 1) (.queued (.ok ())) = [p] ∧
      p.payload = [7] := by
  have hallocate : (perform (.allocate (·.set 0 7))).run (benchStart {}) =
      .ok (.allocated (some .zero), written) := rfl
  have hpoll : (perform .poll).run written = .ok (.polled none, nodeAfter .poll written) := rfl
  have hcommit : (perform (.broadcast 1)).run (nodeAfter .poll written) =
      .ok (.queued (.ok ()), nodeAfter (.broadcast 1) (nodeAfter .poll written)) := rfl
  have hidle : ∀ t ∈ [(⟨written, .poll, .polled none⟩ : Turn Bench.World)], t.Idle := by
    intro t ht
    rw [List.mem_singleton.1 ht]
    exact ⟨rfl, nofun⟩
  obtain ⟨departed, p, m, hleft, hp, -, -, hpay, -⟩ :=
    Execution.allocated_buffer_sent .start hallocate (.turn .poll _ .start hpoll) hidle rfl hcommit
  have hempty : written.queue.toList = [] := rfl
  rw [hempty] at hleft
  have hnone : departed = [] := (List.append_eq_nil_iff.1 hleft.symm).1
  exact ⟨p, hp, by rw [hpay, hnone]; rfl⟩

def overtakenBuffer : List (Happening Bench.World) :=
  [.command (.allocate (·.set 0 10)), .command (.send 1 true), .command (.allocate (·.set 0 11)),
    .command (.send 1 true), .command (.allocate (·.set 0 12)),
    .drift (.scripted 0 { inbound := [.frame { header := ⟨0x41⟩ }] }), .command .poll,
    .command (.send 1 true)]

/-- The third packet carries the byte of the first one. -/
theorem overtaken_buffer_lost : ∃ r,
    play (benchStart {}) overtakenBuffer = some r ∧
      r.1.map (fun t => t.entered.map (·.payload)) =
        [[], [[10]], [], [[11]], [], [], [[10]]] := by
  have hrun : (play (benchStart {}) overtakenBuffer).any
      (fun r => r.1.map (fun t => t.entered.map (·.payload)) =
        [[], [[10]], [], [[11]], [], [], [[10]]]) = true := by
    decide +kernel
  obtain ⟨r, hr, hd⟩ := (Option.any_eq_true ..).1 hrun
  exact ⟨r, hr, of_decide_eq_true hd⟩

end StarNet.Node
