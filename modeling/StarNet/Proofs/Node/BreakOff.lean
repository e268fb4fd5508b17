import StarNet.Proofs.Node.Travel

/-!
Why a command breaks off. A flush is a series of polls with pauses between them. Whatever ends a
command is a failure of the medium, or ends one of the polls that the command makes.
-/
namespace StarNet.Node

/-- The commands that ask for a frame. -/
def Command.Listens : Command → Prop
  | .poll | .flush _ => True
  | _ => False

instance : DecidablePred Command.Listens
  | .poll | .flush _ => .isTrue trivial
  | .allocate _ | .send _ _ | .broadcast _ | .sendRaw _ _ | .shipTrace _ | .initRadio _ =>
    .isFalse id

def Command.pauses : Command → Nat
  | .flush allowance => allowance
  | _ => 0

variable {W : Type} [Medium W] [Clock W] [SignalSource W] {n n' : Node W}
  {f : Fault}

abbrev paused {W : Type} [Clock W] (n : Node W) : Node W :=
  { n with world := Clock.pause n.world }

/-- The node after a poll and a pause of a flush, if the flush goes on. -/
def flushOn? (n : Node W) : Option (Node W) :=
  if n.busy then
    match poll.run n with
    | .ok (none, n') => some n'.paused
    | _ => none
  else none

/-- The node before the polls of a flush, which are counted from zero. -/
def flushNode? : Nat → Node W → Option (Node W)
  | 0, n => some n
  | i + 1, n => n.flushOn?.bind (flushNode? i)

theorem flushNode?_add (i j : Nat) (n : Node W) :
    flushNode? (i + j) n = (flushNode? i n).bind (flushNode? j) := by
  induction i generalizing n with
  | zero =>
    rw [Nat.zero_add]
    rfl
  | succ i ih =>
    rw [Nat.succ_add, flushNode?, flushNode?]
    cases n.flushOn? with
    | none => rfl
    | some m => exact ih m

theorem flushOn?_moves (h : n.flushOn? = some n') : Moves n n' := by
  unfold flushOn? at h
  split at h
  · split at h
    next m hrun =>
      cases h
      obtain ⟨hm, -⟩ := (poll_travels .refl).of_run_eq hrun
      exact hm.tail (.pause m)
    · cases h
  · cases h

theorem flushNode?_moves {i : Nat} (h : flushNode? i n = some n') : Moves n n' := by
  induction i generalizing n with
  | zero =>
    cases h
    exact .refl
  | succ i ih =>
    obtain ⟨m, hm, hrest⟩ := Option.bind_eq_some_iff.1 h
    exact (flushOn?_moves hm).trans (ih hrest)

theorem continueFlush_outcome (n : Node W) :
    Outcome continueFlush n (fun result m => result = none → n.flushOn? = some m.paused)
      fun f => poll.run n = .error f := by
  unfold continueFlush
  rw [outcome_bind, outcome_get]
  split <;> rename_i hbusy
  · refine Outcome.bind (outcome_run n poll) fun delivered m hrun => ?_
    cases delivered with
    | some module => exact nofun
    | none =>
      intro _
      rw [flushOn?, if_pos hbusy, hrun]
  · exact nofun

theorem beginFlush_error (h : beginFlush.run n = .error f) : poll.run n = .error f := by
  unfold beginFlush at h
  change StateT.run (if n.busy = true then _ else _) n = _ at h
  split at h
  · exact (continueFlush_outcome n).of_run_error h
  · exact run_map_error h

theorem flushWithin_error {allowance : Nat} (h : (flushWithin allowance).run n = .error f) :
    ∃ i m, i ≤ allowance ∧ flushNode? i n = some m ∧ poll.run m = .error f := by
  induction allowance generalizing n with
  | zero =>
    rcases run_bind_error h with h | ⟨_ | _, m, -, h⟩
    · exact ⟨0, n, Nat.le_refl 0, rfl, (continueFlush_outcome n).of_run_error h⟩
    · cases h
    · cases h
  | succ allowance ih =>
    rcases run_bind_error h with h | ⟨_ | _, m, hrun, h⟩
    · exact ⟨0, n, Nat.zero_le _, rfl, (continueFlush_outcome n).of_run_error h⟩
    · obtain ⟨i, k, hle, hk, hf⟩ := ih (n := m.paused) h
      refine ⟨i + 1, k, Nat.succ_le_succ hle, ?_, hf⟩
      rw [flushNode?, (continueFlush_outcome n).of_run_eq hrun rfl]
      exact hk
    · cases h

theorem flush_error {allowance : Nat} (h : (flush allowance).run n = .error f) :
    ∃ i m, i ≤ allowance ∧ flushNode? i n = some m ∧ poll.run m = .error f := by
  unfold flush at h
  change StateT.run (if n.busy = true then _ else _) n = _ at h
  split at h
  · exact flushWithin_error h
  · exact ⟨0, n, Nat.zero_le _, rfl, run_map_error h⟩

/-- Only a command that asks for a frame breaks off for another reason than the medium. -/
theorem perform_error {c : Command} (hs : n.queue.count = 0 → n.sendCount = 0)
    (h : (perform c).run n = .error f) : MediumFails W f ∨
      c.Listens ∧ ∃ i m, i ≤ c.pauses ∧ flushNode? i n = some m ∧ poll.run m = .error f := by
  cases c with
  | allocate change =>
    have hrun := run_map_error h
    unfold allocate at hrun
    change StateT.run (if n.enabled = true then _ else _) n = _ at hrun
    split at hrun <;> cases hrun
  | send length ack =>
    have hsend : (send length ack).run n = .error f := run_map_error h
    rw [send_run] at hsend
    exact .inl ((sendRaw_outcome _ _ hs).of_run_error hsend)
  | broadcast length =>
    have hsend : (broadcast length).run n = .error f := run_map_error h
    rw [broadcast_run] at hsend
    exact .inl ((sendRaw_outcome _ _ hs).of_run_error hsend)
  | sendRaw length header =>
    exact .inl ((sendRaw_outcome length header hs).of_run_error (run_map_error h))
  | poll => exact .inr ⟨trivial, 0, n, Nat.le_refl 0, rfl, run_map_error h⟩
  | flush allowance => exact .inr ⟨trivial, flush_error (run_map_error h)⟩
  | shipTrace force =>
    exact .inl ((shipTrace_outcome n force).of_run_error (run_map_error h))
  | initRadio mode =>
    exact .inl ((initRadio_outcome n mode).of_run_error (run_map_error h))

end StarNet.Node
