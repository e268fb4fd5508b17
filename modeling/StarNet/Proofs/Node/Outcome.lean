import StarNet.Node.Command

/-!
How a program of a node may end: in an answer and a node, or in a fault. Each rule says what an
outcome of a program is in terms of its parts, so that a program is taken apart from the front.
-/
namespace StarNet.Node

variable {W α β : Type}

/-- `Q` holds of the answer and the node a program ends with, or `E` of the fault that ends it. -/
def Outcome (x : NodeM W α) (n : Node W) (Q : α → Node W → Prop) (E : Fault → Prop) : Prop :=
  match x.run n with
  | .ok (a, n') => Q a n'
  | .error f => E f

variable {n : Node W} {Q : α → Node W → Prop} {E : Fault → Prop}

theorem Outcome.of_run_eq {x : NodeM W α} {a : α} {n' : Node W} (h : Outcome x n Q E)
    (hr : x.run n = .ok (a, n')) : Q a n' := by
  simpa only [Outcome, hr] using h

theorem Outcome.of_run_error {x : NodeM W α} {f : Fault} (h : Outcome x n Q E)
    (hr : x.run n = .error f) : E f := by
  simpa only [Outcome, hr] using h

theorem Outcome.of_eq_ok {x : NodeM W α} {a : α} {n' : Node W} (hr : x.run n = .ok (a, n'))
    (h : Q a n') : Outcome x n Q E := by
  simpa only [Outcome, hr] using h

theorem outcome_run (n : Node W) (x : NodeM W α) :
    Outcome x n (fun a n' => x.run n = .ok (a, n')) fun f => x.run n = .error f := by
  unfold Outcome
  split <;> assumption

theorem Outcome.imp {x : NodeM W α} {Q' : α → Node W → Prop} {E' : Fault → Prop}
    (h : Outcome x n Q E) (hq : ∀ a n', x.run n = .ok (a, n') → Q a n' → Q' a n')
    (he : ∀ f, E f → E' f) : Outcome x n Q' E' := by
  unfold Outcome at *
  split
  · rename_i a n' hr
    exact hq a n' hr (by simpa only [hr] using h)
  · rename_i f hr
    exact he f (by simpa only [hr] using h)

theorem run_eq_ok {x : NodeM W α} {a : α} {m : Node W}
    (h : Outcome x n (fun b k => b = a ∧ k = m) fun _ => False) : x.run n = .ok (a, m) := by
  unfold Outcome at h
  split at h
  · rename_i hr
    rw [hr, h.1, h.2]
  · exact h.elim

theorem run_eq_error {x : NodeM W α} {f : Fault}
    (h : Outcome x n (fun _ _ => False) fun g => g = f) : x.run n = .error f := by
  unfold Outcome at h
  split at h
  · exact h.elim
  · rename_i hr
    rw [hr, h]

theorem run_of_any {x : NodeM W α} {test : α × Node W → Bool}
    (h : (x.run n).toOption.any test = true) : ∃ a n', x.run n = .ok (a, n') ∧
      test (a, n') = true := by
  cases hr : x.run n with
  | error f => simp [hr, Except.toOption] at h
  | ok r => exact ⟨r.1, r.2, rfl, by simpa [hr, Except.toOption] using h⟩

theorem run_of_no_error {x : NodeM W α} (h : ∀ f, x.run n ≠ .error f) :
    ∃ a n', x.run n = .ok (a, n') := by
  cases hr : x.run n with
  | error f => exact absurd hr (h f)
  | ok r => exact ⟨r.1, r.2, rfl⟩

theorem run_bind_ok {x : NodeM W α} {f : α → NodeM W β} {m : Node W} {a : α}
    (h : x.run n = .ok (a, m)) : (x >>= f).run n = (f a).run m := by
  rw [StateT.run_bind, h]
  rfl

theorem run_bind_error {x : NodeM W α} {g : α → NodeM W β} {f : Fault}
    (h : (x >>= g).run n = .error f) :
    x.run n = .error f ∨ ∃ a m, x.run n = .ok (a, m) ∧ (g a).run m = .error f := by
  rw [StateT.run_bind] at h
  cases hx : x.run n with
  | error e =>
    rw [hx] at h
    cases h
    exact .inl rfl
  | ok r =>
    rw [hx] at h
    exact .inr ⟨r.1, r.2, rfl, h⟩

theorem run_map_error {x : NodeM W α} {g : α → β} {f : Fault}
    (h : (do return g (← x) : NodeM W β).run n = .error f) : x.run n = .error f := by
  rcases run_bind_error h with h | ⟨a, m, -, h⟩
  · exact h
  · cases h

@[simp] theorem outcome_pure (a : α) : Outcome (pure a) n Q E ↔ Q a n := Iff.rfl

@[simp] theorem outcome_bind (x : NodeM W β) (f : β → NodeM W α) :
    Outcome (x >>= f) n Q E ↔ Outcome x n (fun b n' => Outcome (f b) n' Q E) E := by
  unfold Outcome
  rw [StateT.run_bind]
  cases x.run n <;> rfl

theorem Outcome.bind {x : NodeM W β} {f : β → NodeM W α} {P : β → Node W → Prop}
    (hx : Outcome x n P E) (hf : ∀ b m, P b m → Outcome (f b) m Q E) : Outcome (x >>= f) n Q E :=
  (outcome_bind x f).2 (hx.imp (fun b m _ h => hf b m h) fun _ h => h)

@[simp] theorem outcome_get {Q : Node W → Node W → Prop} : Outcome get n Q E ↔ Q n n := Iff.rfl

@[simp] theorem outcome_set (m : Node W) {Q : PUnit → Node W → Prop} :
    Outcome (set m : NodeM W PUnit) n Q E ↔ Q ⟨⟩ m := Iff.rfl

@[simp] theorem outcome_modify (f : Node W → Node W) {Q : PUnit → Node W → Prop} :
    Outcome (modify f : NodeM W PUnit) n Q E ↔ Q ⟨⟩ (f n) := Iff.rfl

@[simp] theorem outcome_throw (f : Fault) : Outcome (throw f : NodeM W α) n Q E ↔ E f := Iff.rfl

theorem outcome_lift (r : Except Fault α) :
    Outcome (liftM r : NodeM W α) n Q E ↔
      (∀ a, r = .ok a → Q a n) ∧ ∀ f, r = .error f → E f := by
  cases r <;> simp [Outcome, liftM, monadLift, MonadLift.monadLift, StateT.lift, StateT.run,
    bind, Except.bind, pure, Except.pure]

@[simp] theorem outcome_canSend [Medium W] {Q : Bool → Node W → Prop} :
    Outcome canSend n Q E ↔
      Q (Medium.canSend n.world).1 { n with world := (Medium.canSend n.world).2 } := Iff.rfl

@[simp] theorem outcome_receive [Medium W] {Q : Reception → Node W → Prop} :
    Outcome receive n Q E ↔
      Q (Medium.receive n.world).1
        { n with
          world := (Medium.receive n.world).2
          received := (Medium.receive n.world).1.into n.received } := Iff.rfl

@[simp] theorem outcome_readClock [Clock W] {Q : Ticks → Node W → Prop} :
    Outcome readClock n Q E ↔
      Q (Clock.now n.world).1 { n with world := (Clock.now n.world).2 } := Iff.rfl

@[simp] theorem outcome_pause [Clock W] {Q : Unit → Node W → Prop} :
    Outcome pause n Q E ↔ Q () { n with world := Clock.pause n.world } := Iff.rfl

@[simp] theorem outcome_sampleSignal [SignalSource W] {Q : Unit → Node W → Prop} :
    Outcome sampleSignal n Q E ↔
      Q () { n with
        world := (SignalSource.sample n.world).2
        receiveSignal := (SignalSource.sample n.world).1 } := Iff.rfl

theorem outcome_transmit [Medium W] (t : Transmission) {Q : Unit → Node W → Prop} :
    Outcome (transmit t) n Q E ↔
      (∀ w, Medium.transmit n.world t = .ok w → Q () { n with world := w }) ∧
        ∀ f, Medium.transmit n.world t = .error f → E f := by
  simp only [transmit, outcome_bind, outcome_get, outcome_lift, outcome_set]

def nodeAfter [Medium W] [Clock W] [SignalSource W] (c : Command) (n : Node W) : Node W :=
  match (perform c).run n with
  | .ok (_, n) => n
  | .error _ => n

/-- A pass of a flush is a poll or nothing. So a flush that lets others in between its passes is a
series of polls, the last of which answers what the flush does. -/
theorem continueFlush_run [Medium W] [Clock W] [SignalSource W] {n n' : Node W}
    {result : Option FlushResult} (h : continueFlush.run n = .ok (result, n')) :
    (n.busy = false ∧ result = some .drained ∧ n' = n) ∨
      n.busy = true ∧ ∃ m?, poll.run n = .ok (m?, n') ∧ result = m?.map .delivered := by
  unfold continueFlush at h
  rw [StateT.run_bind] at h
  change StateT.run (if n.busy = true then _ else _) n = _ at h
  split at h <;> rename_i hbusy
  · rw [StateT.run_bind] at h
    cases hp : poll.run n with
    | error f => simp [hp, bind, Except.bind] at h
    | ok r =>
      obtain ⟨m?, m⟩ := r
      simp only [hp, bind, Except.bind] at h
      cases m? <;> cases h <;> exact .inr ⟨hbusy, _, rfl, rfl⟩
  · cases h
    exact .inl ⟨by simpa using hbusy, rfl, rfl⟩

theorem foldlM_keeps {σ τ : Type} {P : σ → Prop} {step : σ → τ → Option σ} {ts : List τ} {s s' : σ}
    (hs : ts.foldlM step s = some s') (h : P s)
    (keeps : ∀ s t s', P s → step s t = some s' → P s') : P s' := by
  induction ts generalizing s with
  | nil => exact Option.some.inj hs ▸ h
  | cons t ts ih =>
    rw [List.foldlM_cons, Option.bind_eq_bind, Option.bind_eq_some_iff] at hs
    obtain ⟨u, hu, hs⟩ := hs
    exact ih hs (keeps s t u h hu)

end StarNet.Node
