import StarNet.Bench.Rack
import StarNet.Proofs.Node.Drained
import StarNet.Proofs.Node.Safety

/-!
The way of a frame from the medium to a module. A poll answers the number of the module that the
frame it heard names, the frame stays in the receive buffer until the next frame is asked for, and
its payload goes to the first module of that number.
-/
namespace StarNet

section Dispatch

variable {α : Type} [Module α] {modules : List α} {module : α} {id : UInt8} {data : List UInt8}

/-- A payload goes to the first of some modules that has its number, and leaves all others as they
are, or no module has its number. -/
inductive Reaches (modules : List α) (id : UInt8) (data : List UInt8) :
    Except StoreError (List α) → Prop where
  | first (before : List α) (module : α) (after : List α) :
      modules = before ++ module :: after → Module.moduleId module = id →
      (∀ m ∈ before, Module.moduleId m ≠ id) →
      Reaches modules id data (.ok (before ++ Module.receive module data :: after))
  | nobody : (∀ m ∈ modules, Module.moduleId m ≠ id) →
      Reaches modules id data (.error (.unknownModule id))

theorem dispatch_cons_of_eq (h : Module.moduleId module = id) :
    dispatch (module :: modules) (id :: data) = .ok (Module.receive module data :: modules) := by
  simp [dispatch, List.findIdx_cons, h]

theorem dispatch_cons_of_ne (h : Module.moduleId module ≠ id) :
    dispatch (module :: modules) (id :: data) =
      (dispatch modules (id :: data)).map (module :: ·) := by
  have hne : (Module.moduleId module == id) = false := beq_false_of_ne h
  simp only [dispatch, List.any_cons, hne, Bool.false_or, List.findIdx_cons, cond_false]
  split <;> rfl

theorem dispatch_reaches (modules : List α) (id : UInt8) (data : List UInt8) :
    Reaches modules id data (dispatch modules (id :: data)) := by
  induction modules with
  | nil => exact .nobody fun _ hm => absurd hm List.not_mem_nil
  | cons module modules ih =>
    by_cases hid : Module.moduleId module = id
    · rw [dispatch_cons_of_eq hid]
      exact .first [] module modules rfl hid fun _ hm => absurd hm List.not_mem_nil
    · rw [dispatch_cons_of_ne hid]
      generalize dispatch modules (id :: data) = result at ih
      cases ih with
      | first before found after hsplit hfound hbefore =>
        refine .first (module :: before) found after (by rw [hsplit]; rfl) hfound fun m hm => ?_
        rcases List.mem_cons.1 hm with rfl | hm
        · exact hid
        · exact hbefore m hm
      | nobody hnone =>
        refine .nobody fun m hm => ?_
        rcases List.mem_cons.1 hm with rfl | hm
        · exact hid
        · exact hnone m hm

end Dispatch

namespace Node

variable {W : Type} [Medium W] [Clock W] [SignalSource W]

section Received

variable {n n' : Node W} {n₀ : Node (Recorded W)}

omit [Medium W] [Clock W] [SignalSource W] in
theorem Enters.received {c : Command} {ps : List Packet} (h : Enters c n ps n') :
    n'.received = n.received := by
  cases h <;> rfl

theorem Performs.received {c : Command} {a : Answer} (h : Performs n c a n')
    (quiet : ¬ c.Listens) : n'.received = n.received := by
  cases h with
  | poll => exact absurd trivial quiet
  | flush => exact absurd trivial quiet
  | errand he _ hm => exact hm.keeps.1.trans he.received

theorem Execution.received {turns : List (Turn W)} {n : Node (Recorded W)}
    (run : Execution n₀ turns n) (hs : n₀.Sound) (quiet : ∀ t ∈ turns, ¬ t.command.Listens) :
    n.received = n₀.received := by
  induction run with
  | start => rfl
  | turn c a prior hr ih =>
    obtain ⟨-, hperforms⟩ := (perform_performs c (prior.sound hs).count_zero).of_run_eq hr
    rw [hperforms.received (quiet _ (List.mem_append_right _ List.mem_cons_self))]
    exact ih fun t ht => quiet t (List.mem_append_left _ ht)
  | drift w _ ih => exact ih quiet

end Received

variable {n n' : Node (Recorded W)} {delivered : Option UInt8}

omit [Clock W] in
theorem Hears.received (h : Hears n delivered n') :
    ∃ r, receptions n'.world.log = receptions n.world.log ++ [r] ∧
      n'.received = r.into n.received := by
  cases h with
  | ignore r w hr => exact ⟨r, receptions_received hr, rfl⟩
  | deliver p w hr => exact ⟨.frame p, receptions_sampled hr, rfl⟩
  | settle p w hr => exact ⟨.frame p, receptions_sampled hr, rfl⟩

theorem Pass.received (he : n.enabled = true) (h : Pass n delivered n') :
    ∃ r, receptions n'.world.log = receptions n.world.log ++ [r] ∧
      delivered = moduleHeard n.identity r ∧ n'.received = r.into n.received := by
  obtain ⟨r, hlog, hdelivered⟩ := h.hear_one he
  refine ⟨r, hlog, hdelivered, ?_⟩
  cases h with
  | off hoff => exact absurd he (by simp [hoff])
  | on _ hships hhears hremarks hstarts =>
    obtain ⟨r', hlog', hreceived⟩ := hhears.received
    have hsame : r' = r := by
      rw [hstarts.hear_nothing, hremarks.errands.hear_nothing, hlog',
        hships.errands.hear_nothing] at hlog
      exact List.singleton_inj.1 (List.append_cancel_left hlog)
    rw [hstarts.received, hremarks.errands.keeps.1, hreceived, hships.errands.keeps.1, hsame]

theorem moduleHeard_eq_some {own : Identity} {p : Packet} {m : UInt8} :
    moduleHeard own (.frame p) = some m ↔ p.header.control = false ∧
      ¬ (p.header.directed = true ∧ p.header.node ≠ own.node.number) ∧
      p.payload.head? = some m := by
  rw [moduleHeard]
  split
  next h => exact ⟨fun hm => ⟨h.2, h.1, hm⟩, fun hm => hm.2.2⟩
  next h => exact ⟨nofun, fun hm => absurd ⟨hm.2.1, hm.1⟩ h⟩

/-- In every run, a poll of a node with a working medium comes to its end, unless the medium fails
or a reading that is too late is on record. It has then heard one thing. If that is a frame, the
answer is a module exactly if the frame is a data frame, is not directed to another node and names
that module with the first byte of its payload. Whatever is done from then on, short of asking for
the next frame, it is this frame that is in the receive buffer, and its payload goes to the first of
any modules with that number, or is turned down because none has it. -/
theorem Execution.frame_reaches_module {w : W} {identity : Identity} {settings : Settings}
    {capacity : Nat} {turns : List (Turn W)}
    (run : Execution (startRecorded w identity settings capacity) turns n)
    (enabled : n.enabled = true) :
    (∀ f, poll.run n = .error f →
      MediumFails W f ∨ f = .clockOverflow ∧ n.LateReading settings.retryInterval) ∧
    ∀ delivered n', poll.run n = .ok (delivered, n') →
      ∃ r, receptions n'.world.log = receptions n.world.log ++ [r] ∧ ∀ p, r = .frame p →
        (∀ m, delivered = some m ↔ p.header.control = false ∧
          ¬ (p.header.directed = true ∧ p.header.node ≠ identity.node.number) ∧
          p.payload.head? = some m) ∧
        ∀ later k, Execution n' later k → (∀ t ∈ later, ¬ t.command.Listens) →
          k.received = p ∧ ∀ m data, p.payload = m :: data →
            ∀ (α : Type) [Module α] (modules : List α),
              Reaches modules m data (dispatch modules k.received.payload) := by
  have hstart : (startRecorded w identity settings capacity).Sound := .start ..
  have hn : n.Sound := run.sound hstart
  have htime : n.TimeOnRecord := run.time_on_record hstart (.of_zero rfl)
  have hidentity : n.identity = identity := (run.steady hstart).1
  have hsettings : n.settings = settings := (run.steady hstart).2
  constructor
  · intro f hf
    exact hsettings ▸ htime.poll_error hf
  · intro delivered n' hrun
    obtain ⟨hmoves, hpass⟩ := (poll_travels .refl).of_run_eq hrun
    obtain ⟨r, hlog, hdelivered, hreceived⟩ := hpass.received enabled
    refine ⟨r, hlog, ?_⟩
    rintro p rfl
    refine ⟨fun m => ?_, fun later k hlater hquiet => ?_⟩
    · rw [hdelivered, moduleHeard_eq_some, hidentity]
    · have hkept : k.received = p := (hlater.received (hn.moves hmoves) hquiet).trans hreceived
      refine ⟨hkept, fun m data hpayload α _ modules => ?_⟩
      rw [hkept, hpayload]
      exact dispatch_reaches modules m data

section Probes

open Bench

def requestForSeven : Packet := ⟨⟨0x25⟩, 3, Buffer.zero.write 0 [7, 1, 2]⟩

def beforeRequest : List (Happening World) :=
  [.command (.send 1 true), .drift (.scripted 0 { inbound := [.frame requestForSeven] })]

def betweenPolls : List (Happening World) :=
  [.command (.allocate (·.set 0 9)), .command (.broadcast 1), .command (.sendRaw 2 ⟨0x85⟩),
    .command (.shipTrace true)]

def probesOfSeven : List Probe :=
  [{ id := 5, size := 0 }, { id := 7, size := 1 }, { id := 7, size := 2 }]

/-- The poll that hears the frame also answers it. The first of the two probes receives what is
behind its number. -/
theorem request_reaches_first_of_two_probes : ∃ r n' later,
    play (benchStart { trace := true }) beforeRequest = some r ∧
    poll.run r.2 = .ok (some 7, n') ∧ n'.pendingAck = none ∧
    play n' betweenPolls = some later ∧ later.2.received = requestForSeven ∧
    Reaches probesOfSeven 7 [1, 2] (dispatch probesOfSeven later.2.received.payload) ∧
    dispatch probesOfSeven later.2.received.payload =
      .ok [{ id := 5, size := 0 }, { id := 7, size := 1, log := [.received [1, 2]] },
        { id := 7, size := 2 }] := by
  have hruns : (play (benchStart { trace := true }) beforeRequest).any (fun r =>
      r.2.enabled = true ∧ (poll.run r.2).toOption.any (fun x =>
        x.1 = some 7 ∧ x.2.pendingAck = none ∧
        receptions x.2.world.log = receptions r.2.world.log ++ [.frame requestForSeven] ∧
        (play x.2 betweenPolls).any (fun later =>
          ∀ t ∈ later.1, ¬ t.command.Listens) = true) = true) = true := by
    decide +kernel
  obtain ⟨r, hr, hd⟩ := (Option.any_eq_true ..).1 hruns
  obtain ⟨henabled, hends⟩ := of_decide_eq_true hd
  obtain ⟨delivered, n', hpoll, hn'⟩ := run_of_any hends
  obtain ⟨rfl, hpending, hheard, hgoes⟩ := of_decide_eq_true hn'
  obtain ⟨later, hlater, hd⟩ := (Option.any_eq_true ..).1 hgoes
  have hquiet := of_decide_eq_true hd
  obtain ⟨-, hdelivers⟩ := (Execution.of_play hr).frame_reaches_module henabled
  obtain ⟨reception, hlog, hframe⟩ := hdelivers _ _ hpoll
  obtain rfl : reception = .frame requestForSeven :=
    List.singleton_inj.1 (List.append_cancel_left (hlog.symm.trans hheard))
  obtain ⟨hreceived, hreaches⟩ :=
    (hframe _ rfl).2 later.1 later.2 (Execution.of_play hlater) hquiet
  refine ⟨r, n', later, hr, hpoll, hpending, hlater, hreceived,
    hreaches 7 [1, 2] rfl Probe probesOfSeven, ?_⟩
  rw [hreceived]
  rfl

end Probes

end Node
end StarNet
