import Mathlib.Logic.Relation
import StarNet.Proofs.Link.Speech

/-!
Two nodes on a link. A channel is what lies in front of the peer followed by what is on its way
there; it may lose any frame, but keeps the order. Both nodes take commands, channels move and
surroundings change in any order. What either node keeps to holds after every run.
-/
namespace StarNet

structure Pair (E : Type) where
  a : Node (Station E)
  b : Node (Station E)

namespace Pair

variable {E : Type}

def start (left right : E) (a b : Identity) (settings settings' : Settings)
    (capacity capacity' : Nat) : Pair E where
  a := .start { site := left } a settings capacity
  b := .start { site := right } b settings' capacity'

def swap (s : Pair E) : Pair E := ⟨s.b, s.a⟩

/-- All frames from `a` to `b` that were not lost, oldest first. -/
def course (s : Pair E) : List Frame :=
  s.b.world.handed ++ s.b.world.incoming ++ s.a.world.outgoing

/-- What happens to `a` and the frames it sent and is to receive. -/
inductive Step [Medium E] [Clock E] [SignalSource E] : Pair E → Pair E → Prop where
  | perform {s : Pair E} {n : Node (Station E)} (c : Node.Command) (answer : Node.Answer) :
      c.Plain → (Node.perform c).run s.a = .ok (answer, n) → Step s { s with a := n }
  /-- The oldest frame on its way arrives at the peer's end of the channel. -/
  | carry {s : Pair E} {f : Frame} {rest : List Frame} : s.a.world.outgoing = f :: rest →
      Step s {
        a := { s.a with world := { s.a.world with outgoing := rest } }
        b := { s.b with world := { s.b.world with incoming := s.b.world.incoming ++ [f] } } }
  | lose (s : Pair E) (i : Nat) :
      Step s { s with
        a := { s.a with world := { s.a.world with outgoing := s.a.world.outgoing.eraseIdx i } } }
  | miss (s : Pair E) (i : Nat) :
      Step s { s with
        a := { s.a with world := { s.a.world with incoming := s.a.world.incoming.eraseIdx i } } }
  | drift (s : Pair E) (site : E) :
      Step s { s with a := { s.a with world := { s.a.world with site } } }

/-- What happens to the frames that `a` sent and is to receive, and to its surroundings. These are
the steps in which neither node does anything. -/
inductive Shift : Pair E → Pair E → Prop where
  | carry {s : Pair E} {f : Frame} {rest : List Frame} : s.a.world.outgoing = f :: rest →
      Shift s {
        a := { s.a with world := { s.a.world with outgoing := rest } }
        b := { s.b with world := { s.b.world with incoming := s.b.world.incoming ++ [f] } } }
  | lose (s : Pair E) (i : Nat) :
      Shift s { s with
        a := { s.a with world := { s.a.world with outgoing := s.a.world.outgoing.eraseIdx i } } }
  | miss (s : Pair E) (i : Nat) :
      Shift s { s with
        a := { s.a with world := { s.a.world with incoming := s.a.world.incoming.eraseIdx i } } }
  | drift (s : Pair E) (site : E) :
      Shift s { s with a := { s.a with world := { s.a.world with site } } }

variable [Medium E] [Clock E] [SignalSource E] {s s' : Pair E}

theorem Shift.step (h : Shift s s') : Step s s' := by
  cases h with
  | carry ho => exact .carry ho
  | lose i => exact .lose s i
  | miss i => exact .miss s i
  | drift site => exact .drift s site

theorem Step.shift (h : Step s s') : Shift s s' ∨ ∃ c answer n, c.Plain ∧
    (Node.perform c).run s.a = .ok (answer, n) ∧ s' = { s with a := n } := by
  cases h with
  | perform c answer hc hr => exact .inr ⟨c, answer, _, hc, hr, rfl⟩
  | carry ho => exact .inl (.carry ho)
  | lose i => exact .inl (.lose s i)
  | miss i => exact .inl (.miss s i)
  | drift site => exact .inl (.drift s site)

inductive Happens (s s' : Pair E) : Prop where
  | left : Step s s' → Happens s s'
  | right : Step s.swap s'.swap → Happens s s'

abbrev Runs : Pair E → Pair E → Prop := Relation.ReflTransGen Happens

structure Linked (s : Pair E) : Prop where
  a : s.a.Speaks s.course
  b : s.b.Speaks s.swap.course

omit [Medium E] [Clock E] [SignalSource E] in
theorem Linked.swap (h : Linked s) : Linked s.swap := ⟨h.b, h.a⟩

omit [Medium E] [Clock E] [SignalSource E] in
theorem Linked.start (left right : E) (a b : Identity) (settings settings' : Settings)
    (capacity capacity' : Nat) :
    Linked (start left right a b settings settings' capacity capacity') := by
  have hnode (site : E) (own : Identity) (settings : Settings) (capacity : Nat) :
      Node.Speaks (.start { site } own settings capacity : Node (Station E)) [] := by
    refine ⟨.start .., ⟨nofun, .nil, .nil⟩, ⟨nofun, .nil, .nil⟩, nofun, ?_, ?_, nofun, nofun⟩
    · intro p hp
      simp [Node.start] at hp
    · exact Node.awaited_suffix_of_zero rfl _
  exact ⟨hnode .., hnode ..⟩

theorem Linked.step (h : Linked s) (hs : Step s s') : Linked s' := by
  cases hs with
  | perform c answer hc hr =>
    obtain ⟨gs, hg⟩ := h.a.perform hc hr
    constructor
    · have hcourse := hg.speaks
      rw [course, List.append_assoc, ← hg.outgoing] at hcourse
      exact hcourse
    · have hcourse := h.b
      rw [course] at hcourse ⊢
      exact hg.inbound ▸ hcourse
  | @carry f rest ho =>
    have hcourse := h.a.orderly
    have ha := h.a
    rw [course, ho] at ha hcourse
    constructor
    · rw [course]
      simp only [List.append_assoc, List.singleton_append] at ha ⊢
      exact ha.with_outgoing
    · have hfront : [f].Sublist (f :: rest) := (List.nil_sublist rest).cons_cons f
      rw [List.append_assoc] at hcourse
      exact h.b.with_incoming (hcourse.sublist ((hfront.append_left _).append_left _))
  | lose i =>
    constructor
    · exact h.a.with_outgoing.sublist ((List.eraseIdx_sublist ..).append_left _)
    · exact h.b
  | miss i =>
    have hsub : (s.a.world.handed ++ s.a.world.incoming.eraseIdx i).Sublist
        (s.a.world.handed ++ s.a.world.incoming) := (List.eraseIdx_sublist ..).append_left _
    constructor
    · exact h.a.with_incoming (h.a.inbound.sublist hsub)
    · exact h.b.sublist (hsub.append_right _)
  | drift site => exact ⟨h.a.with_outgoing, h.b⟩

theorem Linked.happens (h : Linked s) (hs : Happens s s') : Linked s' := by
  cases hs with
  | left hs => exact h.step hs
  | right hs => exact (h.swap.step hs).swap

theorem Linked.runs (h : Linked s) (hs : Runs s s') : Linked s' := by
  induction hs with
  | refl => exact h
  | tail _ hs ih => exact ih.happens hs

inductive Deed (E : Type) where
  | perform (c : Node.Command)
  | carry
  | lose (i : Nat)
  | drift (site : E)

def act (s : Pair E) : Deed E → Option (Pair E)
  | .perform c =>
    if c.Plain then do
      let (_, n) ← ((Node.perform c).run s.a).toOption
      return { s with a := n }
    else none
  | .carry =>
    match s.a.world.outgoing with
    | [] => none
    | f :: rest => some {
        a := { s.a with world := { s.a.world with outgoing := rest } }
        b := { s.b with world := { s.b.world with incoming := s.b.world.incoming ++ [f] } } }
  | .lose i =>
    some { s with
      a := { s.a with world := { s.a.world with outgoing := s.a.world.outgoing.eraseIdx i } } }
  | .drift site => some { s with a := { s.a with world := { s.a.world with site } } }

def actOn (s : Pair E) : Deed E ⊕ Deed E → Option (Pair E)
  | .inl d => s.act d
  | .inr d => (s.swap.act d).map swap

def play (s : Pair E) (ds : List (Deed E ⊕ Deed E)) : Option (Pair E) := ds.foldlM actOn s

theorem act_perform {c : Node.Command} (h : s.act (.perform c) = some s') : c.Plain ∧
    ∃ answer n, (Node.perform c).run s.a = .ok (answer, n) ∧ s' = { s with a := n } := by
  simp only [act] at h
  split at h
  · rename_i hc
    cases hr : (Node.perform c).run s.a with
    | error f => simp [hr, Except.toOption] at h
    | ok r =>
      simp only [hr, Except.toOption, Option.bind_eq_bind, Option.bind_some, Option.pure_def,
        Option.some.injEq] at h
      exact ⟨hc, r.1, r.2, rfl, h.symm⟩
  · cases h

theorem Shift.of_act {d : Deed E} (hd : ∀ c, d ≠ .perform c) (h : s.act d = some s') :
    Shift s s' := by
  cases d with
  | perform c => exact absurd rfl (hd c)
  | carry =>
    simp only [act] at h
    split at h
    · cases h
    · rename_i ho
      exact Option.some.inj h ▸ .carry ho
  | lose i => exact Option.some.inj h ▸ .lose s i
  | drift site => exact Option.some.inj h ▸ .drift s site

theorem Step.of_act {d : Deed E} (h : s.act d = some s') : Step s s' := by
  by_cases hd : ∃ c, d = .perform c
  · obtain ⟨c, rfl⟩ := hd
    obtain ⟨hc, answer, n, hr, rfl⟩ := act_perform h
    exact .perform c answer hc hr
  · exact (Shift.of_act (fun c hc => hd ⟨c, hc⟩) h).step

theorem Happens.of_actOn {d : Deed E ⊕ Deed E} (h : s.actOn d = some s') : Happens s s' := by
  cases d with
  | inl d => exact .left (.of_act h)
  | inr d =>
    obtain ⟨t, ht, rfl⟩ := Option.map_eq_some_iff.1 h
    exact .right (.of_act ht)

theorem Runs.of_play {ds : List (Deed E ⊕ Deed E)} (h : s.play ds = some s') : Runs s s' :=
  Node.foldlM_keeps (P := Runs s) h .refl fun _ _ _ hs ht => hs.tail (.of_actOn ht)

end Pair

end StarNet
