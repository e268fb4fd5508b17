import StarNet.Proofs.Link.Pair

/-!
Runs of a pair with their histories: the packets that entered the queue of `a`, and the payloads
that `b` delivered. Neither node sees them. Every run has its histories.
-/
namespace StarNet

namespace Node

variable {W : Type}

/-- The payload that came with an answer. It lies in the receive buffer. -/
def delivered (a : Answer) (n : Node W) : List (List UInt8) :=
  if a.module?.isSome then [n.received.payload] else []

end Node

namespace Pair

variable {E : Type} [Medium E] [Clock E] [SignalSource E] {s₀ s s' : Pair E} {ps : List Packet}
  {ds : List (List UInt8)}

/-- `a` accepted the packets `ps` and `b` delivered the payloads `ds`, both in this order. -/
inductive Exchange (s₀ : Pair E) : List Packet → List (List UInt8) → Pair E → Prop where
  | start : Exchange s₀ [] [] s₀
  | left {ps : List Packet} {ds : List (List UInt8)} {s : Pair E} {n : Node (Station E)}
      (c : Node.Command) (answer : Node.Answer) : Exchange s₀ ps ds s → c.Plain →
      (Node.perform c).run s.a = .ok (answer, n) →
      Exchange s₀ (ps ++ c.entered s.a answer) ds { s with a := n }
  | right {ps : List Packet} {ds : List (List UInt8)} {s : Pair E} {n : Node (Station E)}
      (c : Node.Command) (answer : Node.Answer) : Exchange s₀ ps ds s → c.Plain →
      (Node.perform c).run s.b = .ok (answer, n) →
      Exchange s₀ ps (ds ++ Node.delivered answer n) { s with b := n }
  | shift {ps : List Packet} {ds : List (List UInt8)} {s s' : Pair E} : Exchange s₀ ps ds s →
      Shift s s' → Exchange s₀ ps ds s'
  | shift_back {ps : List Packet} {ds : List (List UInt8)} {s s' : Pair E} :
      Exchange s₀ ps ds s → Shift s.swap s'.swap → Exchange s₀ ps ds s'

theorem Exchange.runs (h : Exchange s₀ ps ds s) : Runs s₀ s := by
  induction h with
  | start => exact .refl
  | left c answer _ hc hr ih => exact ih.tail (.left (.perform c answer hc hr))
  | @right _ _ s n c answer _ hc hr ih =>
    exact ih.tail (.right (.perform (s := s.swap) c answer hc hr))
  | shift _ hs ih => exact ih.tail (.left hs.step)
  | shift_back _ hs ih => exact ih.tail (.right hs.step)

theorem Runs.exchange (h : Runs s₀ s) : ∃ ps ds, Exchange s₀ ps ds s := by
  induction h with
  | refl => exact ⟨[], [], .start⟩
  | @tail s s' _ hs ih =>
    obtain ⟨ps, ds, hx⟩ := ih
    cases hs with
    | left hs =>
      rcases hs.shift with hs | ⟨c, answer, n, hc, hr, rfl⟩
      · exact ⟨ps, ds, hx.shift hs⟩
      · exact ⟨_, ds, hx.left c answer hc hr⟩
    | right hs =>
      rcases hs.shift with hs | ⟨c, answer, n, hc, hr, hs'⟩
      · exact ⟨ps, ds, hx.shift_back hs⟩
      · obtain rfl : s' = { s with b := n } := congrArg swap hs'
        exact ⟨ps, _, hx.right c answer hc hr⟩

def enteredBy (s : Pair E) : Deed E ⊕ Deed E → List Packet
  | .inl (.perform c) =>
    match (Node.perform c).run s.a with
    | .ok (answer, _) => c.entered s.a answer
    | .error _ => []
  | _ => []

def deliveredBy (s : Pair E) : Deed E ⊕ Deed E → List (List UInt8)
  | .inr (.perform c) =>
    match (Node.perform c).run s.b with
    | .ok (answer, n) => Node.delivered answer n
    | .error _ => []
  | _ => []

structure Histories (E : Type) where
  packets : List Packet := []
  payloads : List (List UInt8) := []
  state : Pair E

def Histories.act (r : Histories E) (d : Deed E ⊕ Deed E) : Option (Histories E) := do
  return ⟨r.packets ++ r.state.enteredBy d, r.payloads ++ r.state.deliveredBy d,
    ← r.state.actOn d⟩

def record (s : Pair E) (deeds : List (Deed E ⊕ Deed E)) : Option (Histories E) :=
  deeds.foldlM Histories.act { state := s }

theorem Exchange.act {r r' : Histories E} {d : Deed E ⊕ Deed E}
    (h : Exchange s₀ r.packets r.payloads r.state) (hr : r.act d = some r') :
    Exchange s₀ r'.packets r'.payloads r'.state := by
  obtain ⟨s', hs', hr'⟩ := Option.bind_eq_some_iff.1 hr
  obtain rfl := Option.some.inj hr'
  cases d with
  | inl d =>
    have hs' : r.state.act d = some s' := hs'
    show Exchange s₀ _ (r.payloads ++ []) s'
    rw [List.append_nil]
    by_cases hd : ∃ c, d = .perform c
    · obtain ⟨c, rfl⟩ := hd
      obtain ⟨hc, answer, n, hn, rfl⟩ := act_perform hs'
      simpa only [enteredBy, hn] using h.left c answer hc hn
    · have hnone : r.state.enteredBy (.inl d) = [] := by
        cases d <;> first | rfl | exact absurd ⟨_, rfl⟩ hd
      rw [hnone, List.append_nil]
      exact h.shift (.of_act (fun c hc => hd ⟨c, hc⟩) hs')
  | inr d =>
    obtain ⟨t, ht, rfl⟩ := Option.map_eq_some_iff.1 hs'
    show Exchange s₀ (r.packets ++ []) _ t.swap
    rw [List.append_nil]
    by_cases hd : ∃ c, d = .perform c
    · obtain ⟨c, rfl⟩ := hd
      obtain ⟨hc, answer, n, hn, rfl⟩ := act_perform ht
      have hn : (Node.perform c).run r.state.b = .ok (answer, n) := hn
      have hx := h.right c answer hc hn
      simp only [deliveredBy, hn]
      exact hx
    · have hnone : r.state.deliveredBy (.inr d) = [] := by
        cases d <;> first | rfl | exact absurd ⟨_, rfl⟩ hd
      rw [hnone, List.append_nil]
      exact h.shift_back (.of_act (fun c hc => hd ⟨c, hc⟩) ht)

theorem Exchange.of_record {deeds : List (Deed E ⊕ Deed E)} {r : Histories E}
    (h : s₀.record deeds = some r) : Exchange s₀ r.packets r.payloads r.state :=
  Node.foldlM_keeps (P := fun r => Exchange s₀ r.packets r.payloads r.state) h .start
    fun _ _ _ hx hr => hx.act hr

end Pair

end StarNet
