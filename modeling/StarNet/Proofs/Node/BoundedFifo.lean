import StarNet.Node.Queue

/-!
The outbound queue is a bounded queue, first in, first out. Beside the row of slots stands a line of
packets with a stack of spare slots. In every run from an empty queue the two answer alike and keep
the same, so what is queued are the packets accepted and not yet dropped, as they were accepted.
-/
namespace StarNet.Queue

inductive Request where
  /-- Shows the buffer of the next free slot, which the caller may change. -/
  | allocate (change : Buffer → Buffer)
  | push (header : Header) (length : UInt8)
  | pop

inductive Reply where
  | shown (buffer : Option Buffer)
  | pushed (result : Except SendError Unit)
  | popped (dropped : Bool)

def serve (q : Queue) : Request → Reply × Queue
  | .allocate change => (.shown q.allocate?, q.fill change)
  | .push header length =>
    match q.push header length with
    | .ok q' => (.pushed (.ok ()), q')
    | .error e => (.pushed (.error e), q)
  | .pop => if q.isEmpty then (.popped false, q) else (.popped true, q.pop)

def after (q : Queue) (rs : List Request) : Queue := rs.foldl (fun q r => (q.serve r).2) q

structure Exchange where
  before : Queue
  request : Request
  reply : Reply

def exchanges (q : Queue) : List Request → List Exchange
  | [] => []
  | r :: rs => ⟨q, r, (q.serve r).1⟩ :: exchanges (q.serve r).2 rs

/-- The packet that was accepted, with what its slot then showed. -/
def Exchange.accepted? (x : Exchange) : Option Packet :=
  match x.request, x.reply, x.before.allocate? with
  | .push header length, .pushed (.ok ()), some buffer => some ⟨header, length, buffer⟩
  | _, _, _ => none

def Exchange.drops (x : Exchange) : Bool :=
  match x.reply with
  | .popped dropped => dropped
  | _ => false

def accepted (xs : List Exchange) : List Packet := xs.filterMap Exchange.accepted?

def drops (xs : List Exchange) : Nat := xs.countP Exchange.drops

theorem accepted_cons (x : Exchange) (xs : List Exchange) :
    accepted (x :: xs) = accepted [x] ++ accepted xs := by
  rw [← List.singleton_append, accepted, List.filterMap_append]
  rfl

theorem drops_cons (x : Exchange) (xs : List Exchange) :
    drops (x :: xs) = drops [x] + drops xs := by
  rw [← List.singleton_append, drops, List.countP_append]
  rfl

/-- The packets that wait, and the slots to spare, of which the first is shown next. -/
structure Line where
  waiting : List Packet
  spare : List Packet

namespace Line

def empty (capacity : Nat) : Line := ⟨[], List.replicate capacity {}⟩

def serve (l : Line) : Request → Reply × Line
  | .allocate change =>
    match l.spare with
    | [] => (.shown none, l)
    | slot :: spare =>
      (.shown (some slot.buffer),
        { l with spare := { slot with buffer := change slot.buffer } :: spare })
  | .push header length =>
    match l.spare with
    | [] => (.pushed (.error .queueFull), l)
    | slot :: spare =>
      if maxData < length.toNat then (.pushed (.error .tooLong), l)
      else (.pushed (.ok ()), ⟨l.waiting ++ [⟨header, length, slot.buffer⟩], spare⟩)
  | .pop =>
    match l.waiting with
    | [] => (.popped false, l)
    | p :: waiting => (.popped true, ⟨waiting, p :: l.spare⟩)

def after (l : Line) (rs : List Request) : Line := rs.foldl (fun l r => (l.serve r).2) l

def replies (l : Line) : List Request → List Reply
  | [] => []
  | r :: rs => (l.serve r).1 :: replies (l.serve r).2 rs

end Line

def line (q : Queue) : Line := ⟨q.toList, q.free⟩

theorem serve_line (q : Queue) (r : Request) :
    (q.serve r).1 = (q.line.serve r).1 ∧ (q.serve r).2.line = (q.line.serve r).2 := by
  cases r with
  | allocate change =>
    simp only [serve, Line.serve, line, allocate?_eq_free, free_fill, toList_fill]
    cases q.free <;> exact ⟨rfl, rfl⟩
  | push header length =>
    simp only [Line.serve, line]
    cases hfree : q.free with
    | nil => simp [serve, push_of_full hfree, hfree]
    | cons slot spare =>
      by_cases hlong : maxData < length.toNat
      · simp [serve, push_of_too_long hfree hlong, hfree, hlong]
      · obtain ⟨q', hpush, hlist, hspare⟩ := push_of_fits header hfree (Nat.not_lt.1 hlong)
        simp [serve, hpush, hlist, hspare, hlong]
  | pop =>
    simp only [serve, Line.serve, line]
    cases hlist : q.toList with
    | nil => simp [q.isEmpty_iff.2 hlist, hlist]
    | cons p waiting =>
      have hhead : q.head? = some p := by rw [head?, hlist, List.head?_cons]
      simp [isEmpty_of_head hhead, toList_pop, free_pop hhead, hlist]

theorem toList_serve (q : Queue) (r : Request) :
    (q.serve r).2.toList = (q.line.serve r).2.waiting := congrArg Line.waiting (q.serve_line r).2

theorem free_serve (q : Queue) (r : Request) :
    (q.serve r).2.free = (q.line.serve r).2.spare := congrArg Line.spare (q.serve_line r).2

theorem line_after (q : Queue) (rs : List Request) : (q.after rs).line = q.line.after rs := by
  induction rs generalizing q with
  | nil => rfl
  | cons r rs ih => exact (ih (q.serve r).2).trans (congrArg (Line.after · rs) (q.serve_line r).2)

theorem replies_exchanges (q : Queue) (rs : List Request) :
    (q.exchanges rs).map (·.reply) = q.line.replies rs := by
  induction rs generalizing q with
  | nil => rfl
  | cons r rs ih =>
    obtain ⟨hreply, hline⟩ := q.serve_line r
    rw [exchanges, List.map_cons, ih, Line.replies, hreply, hline]

theorem toList_exchange (q : Queue) (r : Request) :
    drops [⟨q, r, (q.serve r).1⟩] ≤ q.toList.length ∧
      (q.serve r).2.toList = q.toList.drop (drops [⟨q, r, (q.serve r).1⟩]) ++
        accepted [⟨q, r, (q.serve r).1⟩] := by
  rw [(q.serve_line r).1, toList_serve]
  simp only [drops, accepted, line]
  cases r with
  | allocate change =>
    cases hfree : q.free <;>
      simp [Line.serve, Exchange.drops, Exchange.accepted?]
  | push header length =>
    cases hfree : q.free with
    | nil => simp [Line.serve, Exchange.drops, Exchange.accepted?]
    | cons slot spare =>
      have hshown : q.allocate? = some slot.buffer := by simp [allocate?_eq_free, hfree]
      by_cases hlong : maxData < length.toNat <;>
        simp [Line.serve, Exchange.drops, Exchange.accepted?, hlong, hshown]
  | pop =>
    cases hlist : q.toList <;> simp [Line.serve, Exchange.drops, Exchange.accepted?]

/-- Of what waited and what came behind it, the first were dropped and the others wait. -/
theorem toList_after (q : Queue) (rs : List Request) :
    drops (q.exchanges rs) ≤ (q.toList ++ accepted (q.exchanges rs)).length ∧
      (q.after rs).toList =
        (q.toList ++ accepted (q.exchanges rs)).drop (drops (q.exchanges rs)) := by
  induction rs generalizing q with
  | nil => exact ⟨Nat.zero_le _, (List.append_nil _).symm⟩
  | cons r rs ih =>
    obtain ⟨hle, hlist⟩ := q.toList_exchange r
    obtain ⟨hbound, hafter⟩ := ih (q.serve r).2
    generalize hfirst : (⟨q, r, (q.serve r).1⟩ : Exchange) = x at hle hlist
    have hsplit : accepted (q.exchanges (r :: rs)) =
        accepted [x] ++ accepted (exchanges (q.serve r).2 rs) := by
      rw [exchanges, hfirst, accepted_cons]
    have hcount : drops (q.exchanges (r :: rs)) =
        drops [x] + drops (exchanges (q.serve r).2 rs) := by
      rw [exchanges, hfirst, drops_cons]
    rw [hlist, List.append_assoc, ← hsplit] at hbound hafter
    rw [hcount, ← List.drop_drop, List.drop_append_of_le_length hle]
    rw [List.length_append, List.length_drop] at hbound
    refine ⟨?_, hafter⟩
    rw [List.length_append]
    omega

theorem length_slots_serve (q : Queue) (r : Request) :
    (q.serve r).2.slots.length = q.slots.length := by
  rw [← length_free, ← length_free, toList_serve, free_serve]
  simp only [line]
  cases r with
  | allocate change => cases q.free <;> simp [Line.serve]
  | push header length =>
    cases q.free with
    | nil => simp [Line.serve]
    | cons slot spare =>
      by_cases hlong : maxData < length.toNat <;> simp [Line.serve, hlong]
      omega
  | pop =>
    cases q.toList with
    | nil => simp [Line.serve]
    | cons p waiting =>
      simp only [Line.serve, List.length_cons]
      omega

theorem length_slots_after (q : Queue) (rs : List Request) :
    (q.after rs).slots.length = q.slots.length := by
  induction rs generalizing q with
  | nil => rfl
  | cons r rs ih => exact (ih (q.serve r).2).trans (q.length_slots_serve r)

/-- A queue of so many slots, in first-in, first-out order after the exchanges so far. -/
structure InOrder (capacity : Nat) (xs : List Exchange) (q : Queue) : Prop where
  row : q.slots.length = capacity
  /-- What waits was accepted and not dropped, and is as it was accepted. -/
  waiting : q.toList = (accepted xs).drop (drops xs)
  dropped : drops xs ≤ (accepted xs).length
  unshown : ∀ change, (q.serve (.allocate change)).1 = .shown none ↔ q.toList.length = capacity
  refused : ∀ header length, (q.serve (.push header length)).1 = .pushed (.error .queueFull) ↔
    q.toList.length = capacity
  undropped : (q.serve .pop).1 = .popped false ↔ q.toList = []
  oldest : (q.serve .pop).2.toList = q.toList.tail
  permuted : (q.serve .pop).2.slots.Perm q.slots
  /-- The slot of the packet that was dropped is the next one to be shown. -/
  recycled : (q.serve .pop).2.free = q.toList.take 1 ++ q.free

/-- In every run from an empty queue of any size, the queue answers and keeps the same as its line,
and what waits are the packets accepted and not yet dropped. -/
theorem serves_in_order (capacity : Nat) (rs : List Request) :
    ((ofCapacity capacity).exchanges rs).map (·.reply) = (Line.empty capacity).replies rs ∧
      ((ofCapacity capacity).after rs).line = (Line.empty capacity).after rs ∧
      InOrder capacity ((ofCapacity capacity).exchanges rs) ((ofCapacity capacity).after rs) := by
  have hempty : (ofCapacity capacity).line = .empty capacity := rfl
  obtain ⟨hle, hlist⟩ := toList_after (ofCapacity capacity) rs
  have hrow : ((ofCapacity capacity).after rs).slots.length = capacity := by
    rw [length_slots_after]
    exact List.length_replicate
  refine ⟨hempty ▸ replies_exchanges .., hempty ▸ line_after .., ?_⟩
  generalize (ofCapacity capacity).after rs = q at hlist hrow
  have hfull : q.toList.length = capacity ↔ q.free = [] := by rw [free_eq_nil_iff, hrow]
  refine ⟨hrow, hlist, hle, fun change => ?_, fun header length => ?_, ?_, ?_, ?_, ?_⟩
  · rw [hfull]
    cases hfree : q.free <;> simp [serve, allocate?_eq_free, hfree]
  · rw [hfull, (q.serve_line _).1]
    simp only [Line.serve, line]
    cases q.free with
    | nil => simp
    | cons slot spare => by_cases hlong : maxData < length.toNat <;> simp [hlong]
  · rw [(q.serve_line _).1]
    simp only [Line.serve, line]
    cases q.toList <;> simp
  · rw [toList_serve]
    simp only [Line.serve, line]
    cases q.toList <;> rfl
  · change (if q.isEmpty then _ else _ : Reply × Queue).2.slots.Perm q.slots
    split
    · exact .refl _
    · exact q.slots_pop_perm
  · rw [free_serve]
    simp only [Line.serve, line]
    cases q.toList <;> rfl

end StarNet.Queue
