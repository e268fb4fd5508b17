import StarNet.Bench.Timetable
import StarNet.Bench.World
import StarNet.Proofs.Node.Sound

/-!
Runs of a node: commands in any order, between which the surroundings may change in any way.
A record of all dealings with the surroundings is kept beside them, which the node never sees.
What holds at the start and is kept by a packet that enters and by every move holds after every
run.
-/
namespace StarNet.Node

/-- What a node asked of its surroundings, and what it was told. -/
inductive Event where
  | asked (free : Bool)
  | sent (t : Transmission)
  | heard (r : Reception)
  | read (time : Ticks)
  | sampled (signal : UInt8)
  | noted (code : UInt8)
  | configured (identity : Identity) (mode : RadioMode)
  deriving DecidableEq

def Event.data? : Event → Option Transmission
  | .sent t => if t.purpose = .data then some t else none
  | _ => none

def dataSent (log : List Event) : List Transmission := log.filterMap Event.data?

theorem dataSent_append (log es : List Event) :
    dataSent (log ++ es) = dataSent log ++ dataSent es := List.filterMap_append

structure Recorded (W : Type) where
  surroundings : W
  log : List Event := []

namespace Recorded

variable {W : Type} {r r' : Recorded W}

def add (r : Recorded W) (w : W) (e : Event) : Recorded W := ⟨w, r.log ++ [e]⟩

instance [Medium W] : Medium (Recorded W) where
  enabled r := Medium.enabled r.surroundings
  configure r identity mode :=
    r.add (Medium.configure r.surroundings identity mode) (.configured identity mode)
  canSend r :=
    let (free, w) := Medium.canSend r.surroundings
    (free, r.add w (.asked free))
  transmit r t := do return r.add (← Medium.transmit r.surroundings t) (.sent t)
  receive r :=
    let (reception, w) := Medium.receive r.surroundings
    (reception, r.add w (.heard reception))
  noted r code := r.add (Medium.noted r.surroundings code) (.noted code)

instance [Clock W] : Clock (Recorded W) where
  now r :=
    let (time, w) := Clock.now r.surroundings
    (time, r.add w (.read time))
  pause r := { r with surroundings := Clock.pause r.surroundings }

instance [SignalSource W] : SignalSource (Recorded W) where
  sample r :=
    let (signal, w) := SignalSource.sample r.surroundings
    (signal, r.add w (.sampled signal))

@[simp] theorem log_configure [Medium W] (identity : Identity) (mode : RadioMode) :
    (Medium.configure r identity mode).log = r.log ++ [.configured identity mode] := rfl

@[simp] theorem log_canSend [Medium W] :
    (Medium.canSend r).2.log = r.log ++ [.asked (Medium.canSend r).1] := rfl

theorem transmit_eq_ok [Medium W] {t : Transmission} (h : Medium.transmit r t = .ok r') :
    ∃ w, Medium.transmit r.surroundings t = .ok w ∧ r' = r.add w (.sent t) := by
  unfold Medium.transmit instMedium at h
  cases hw : Medium.transmit r.surroundings t with
  | error => simp [hw, bind, Except.bind] at h
  | ok w =>
    simp only [hw, bind, Except.bind, pure, Except.pure, Except.ok.injEq] at h
    exact ⟨w, rfl, h.symm⟩

theorem log_transmit [Medium W] {t : Transmission} (h : Medium.transmit r t = .ok r') :
    r'.log = r.log ++ [.sent t] := by
  obtain ⟨w, -, rfl⟩ := transmit_eq_ok h
  rfl

theorem log_receive [Medium W] {reception : Reception} (h : Medium.receive r = (reception, r')) :
    r'.log = r.log ++ [.heard reception] := by
  cases h
  rfl

@[simp] theorem log_noted [Medium W] (code : UInt8) :
    (Medium.noted r code).log = r.log ++ [.noted code] := rfl

@[simp] theorem log_now [Clock W] : (Clock.now r).2.log = r.log ++ [.read (Clock.now r).1] := rfl

@[simp] theorem log_pause [Clock W] : (Clock.pause r).log = r.log := rfl

@[simp] theorem log_sample [SignalSource W] :
    (SignalSource.sample r).2.log = r.log ++ [.sampled (SignalSource.sample r).1] := rfl

end Recorded

variable {W : Type} [Medium W] [Clock W] [SignalSource W]

/-- A command, the node it was given to, and its answer. -/
structure Turn (W : Type) where
  before : Node (Recorded W)
  command : Command
  answer : Answer

/-- The packet that entered the queue in this turn. -/
def Turn.entered {W : Type} (t : Turn W) : List Packet := t.command.entered t.before t.answer

def entered {W : Type} (turns : List (Turn W)) : List Packet := turns.flatMap Turn.entered

inductive Execution (n₀ : Node (Recorded W)) : List (Turn W) → Node (Recorded W) → Prop where
  | start : Execution n₀ [] n₀
  | turn {turns n n'} (c : Command) (a : Answer) : Execution n₀ turns n →
      (perform c).run n = .ok (a, n') → Execution n₀ (turns ++ [⟨n, c, a⟩]) n'
  /-- The surroundings change by themselves; the record stays. -/
  | drift {turns n} (w : W) : Execution n₀ turns n →
      Execution n₀ turns { n with world := { n.world with surroundings := w } }

abbrev startRecorded {W : Type} (w : W) (identity : Identity) (settings : Settings)
    (capacity : Nat) : Node (Recorded W) := start ⟨w, []⟩ identity settings capacity

variable {n₀ n : Node (Recorded W)} {turns : List (Turn W)}

theorem Execution.sound (run : Execution n₀ turns n) (h : n₀.Sound) : n.Sound := by
  induction run with
  | start => exact h
  | turn c a _ hr ih =>
    obtain ⟨m, he, hm⟩ := (perform_outcome c ih.count_zero).of_run_eq hr
    exact (ih.enters he).moves hm
  | drift w _ ih => exact ih.in_world _

/-- What holds at the start of a run and is kept by its turns' beginnings, by every move and by
the surroundings holds at its end. -/
theorem Execution.keeps {I : List Packet → Node (Recorded W) → Prop}
    (run : Execution n₀ turns n) (hs : n₀.Sound) (start : I [] n₀)
    (enters : ∀ {ps qs c n n'}, n.Sound → I ps n → Enters c n qs n' → I (ps ++ qs) n')
    (move : ∀ {ps n n'}, n.Sound → I ps n → Move n n' → I ps n')
    (drift : ∀ {ps n} (w : W), I ps n →
      I ps { n with world := { n.world with surroundings := w } }) : I (entered turns) n := by
  induction run with
  | start => exact start
  | turn c a prior hr ih =>
    have hn := prior.sound hs
    obtain ⟨m, he, hm⟩ := (perform_outcome c hn.count_zero).of_run_eq hr
    have hi := enters hn ih he
    have hsm := hn.enters he
    clear hr
    simp only [entered, List.flatMap_append, List.flatMap_singleton]
    induction hm with
    | refl => exact hi
    | tail hms hmv ihm => exact move (hsm.moves hms) ihm hmv
  | drift w _ ih => exact drift w ih

theorem Execution.steady (run : Execution n₀ turns n) (hs : n₀.Sound) :
    n.identity = n₀.identity ∧ n.settings = n₀.settings := by
  refine run.keeps (I := fun _ n => n.identity = n₀.identity ∧ n.settings = n₀.settings) hs
    ⟨rfl, rfl⟩ (fun _ h he => ?_) (fun _ h hm => ?_) fun _ h => h
  · exact ⟨he.steady.1.trans h.1, he.steady.2.trans h.2⟩
  · exact ⟨hm.steady.1.trans h.1, hm.steady.2.trans h.2⟩

inductive Happening (W : Type) where
  | command (c : Command)
  | drift (w : W)

def happen (r : List (Turn W) × Node (Recorded W)) :
    Happening W → Option (List (Turn W) × Node (Recorded W))
  | .command c => do
    let (a, n) ← ((perform c).run r.2).toOption
    return (r.1 ++ [⟨r.2, c, a⟩], n)
  | .drift w => return (r.1, { r.2 with world := { r.2.world with surroundings := w } })

def play (n₀ : Node (Recorded W)) (hs : List (Happening W)) :
    Option (List (Turn W) × Node (Recorded W)) := hs.foldlM happen ([], n₀)

theorem Execution.happen {h : Happening W} {r : List (Turn W) × Node (Recorded W)}
    (run : Execution n₀ turns n) (hr : happen (turns, n) h = some r) :
    Execution n₀ r.1 r.2 := by
  cases h with
  | command c =>
    cases hc : (perform c).run n with
    | error f => simp [Node.happen, hc, Except.toOption] at hr
    | ok x =>
      simp only [Node.happen, hc, Except.toOption, Option.bind_eq_bind, Option.bind_some,
        Option.pure_def, Option.some.injEq] at hr
      exact hr ▸ run.turn c x.1 hc
  | drift w =>
    simp only [Node.happen, Option.pure_def, Option.some.injEq] at hr
    exact hr ▸ run.drift w

theorem Execution.of_play {hs : List (Happening W)} {r : List (Turn W) × Node (Recorded W)}
    (h : play n₀ hs = some r) : Execution n₀ r.1 r.2 :=
  foldlM_keeps (P := fun r => Execution n₀ r.1 r.2) h .start fun _ _ _ run hr => run.happen hr

theorem timetable_never_fails {C S : Type} (f : Fault) : ¬ MediumFails (Timetable C S) f := by
  rintro ⟨w, t, ht⟩
  cases ht

abbrev benchStart (settings : Settings) : Node (Recorded Bench.World) :=
  startRecorded (.scripted 0 {}) {} settings 3

end StarNet.Node
