import StarNet.Frame.Packet

/-!
The outbound queue: a fixed row of packet slots, of which the first `count` are queued, oldest
first. A payload is written into the first free slot and then committed with its header and
length. Slots are never cleared; popping moves the head's slot to the front of the free ones.
-/
namespace StarNet

structure Queue where
  slots : List Packet
  count : Nat
  count_le : count ≤ slots.length
  deriving DecidableEq

namespace Queue

def ofCapacity (capacity : Nat) : Queue := ⟨List.replicate capacity {}, 0, Nat.zero_le _⟩

def capacity (q : Queue) : Nat := q.slots.length

def toList (q : Queue) : List Packet := q.slots.take q.count

def free (q : Queue) : List Packet := q.slots.drop q.count

def isEmpty (q : Queue) : Bool := q.count == 0

def isFull (q : Queue) : Bool := decide (q.slots.length ≤ q.count)

def head? (q : Queue) : Option Packet := q.toList.head?

/-- The buffer of the first free slot as it stands. -/
def allocate? (q : Queue) : Option Buffer := q.slots[q.count]?.map (·.buffer)

def fill (q : Queue) (change : Buffer → Buffer) : Queue :=
  { q with
    slots := q.slots.modify q.count fun p => { p with buffer := change p.buffer }
    count_le := by simpa using q.count_le }

/-- Commits the first free slot. A full queue is reported before a length that does not fit. -/
def push (q : Queue) (header : Header) (length : UInt8) : Except SendError Queue :=
  if h : q.count < q.slots.length then do
    let p ← q.slots[q.count].setLength length
    return ⟨q.slots.set q.count { p with header }, q.count + 1,
      by rw [List.length_set]; exact h⟩
  else .error .queueFull

/-- Drops the head packet, whose slot becomes the first free one. -/
def pop (q : Queue) : Queue where
  slots := q.toList.tail ++ (q.toList.take 1 ++ q.free)
  count := q.count - 1
  count_le := by
    have := q.count_le
    simp only [toList, free, List.length_append, List.length_tail, List.length_take,
      List.length_drop]
    omega

@[simp] theorem length_toList (q : Queue) : q.toList.length = q.count := by
  simp [toList, Nat.min_eq_left q.count_le]

theorem exists_head {q : Queue} (h : q.isEmpty = false) : ∃ p, q.head? = some p := by
  have hne : q.toList ≠ [] := by
    intro he
    simp [isEmpty, ← length_toList, he] at h
  exact ⟨q.toList.head hne, List.head?_eq_some_head hne⟩

theorem toList_of_head {q : Queue} {p : Packet} (h : q.head? = some p) :
    q.toList = p :: q.toList.tail := by
  obtain ⟨ps, hps⟩ := List.head?_eq_some_iff.1 h
  rw [hps, List.tail_cons]

theorem isEmpty_of_head {q : Queue} {p : Packet} (h : q.head? = some p) : q.isEmpty = false := by
  have hlen := congrArg List.length (toList_of_head h)
  rw [length_toList, List.length_cons] at hlen
  rw [isEmpty, hlen]
  exact beq_false_of_ne (Nat.succ_ne_zero _)

theorem head?_of_append {q q' : Queue} {p : Packet} {ps : List Packet} (h : q.head? = some p)
    (ht : q'.toList = q.toList ++ ps) : q'.head? = some p := by
  rw [head?, ht, toList_of_head h]
  rfl

@[simp] theorem toList_ofCapacity (capacity : Nat) : (ofCapacity capacity).toList = [] := rfl

@[simp] theorem toList_fill (q : Queue) (change : Buffer → Buffer) :
    (q.fill change).toList = q.toList := by
  unfold toList fill
  apply List.ext_getElem?
  intro i
  by_cases h : i < q.count
  · simp [h, Nat.ne_of_gt h]
  · simp only [List.getElem?_take, h, if_false]

theorem toList_push {q q' : Queue} {header : Header} {length : UInt8}
    (h : q.push header length = .ok q') :
    ∃ buffer, q.allocate? = some buffer ∧ length.toNat ≤ maxData ∧
      q'.toList = q.toList ++ [⟨header, length, buffer⟩] := by
  unfold push at h
  split at h
  · rename_i hlt
    unfold Packet.setLength at h
    split at h
    · cases h
    · rename_i hfit
      cases h
      refine ⟨q.slots[q.count].buffer, by simp [allocate?, hlt], by omega, ?_⟩
      simp [toList, List.take_add_one, hlt, List.take_set_of_le]
  · cases h

theorem count_push {q q' : Queue} {header : Header} {length : UInt8}
    (h : q.push header length = .ok q') : q'.count = q.count + 1 := by
  obtain ⟨buffer, -, -, ht⟩ := toList_push h
  simpa using congrArg List.length ht

@[simp] theorem toList_pop (q : Queue) : q.pop.toList = q.toList.tail := by
  have h : q.pop.count = q.toList.tail.length := by simp [pop]
  rw [toList, h]
  exact List.take_left

theorem allocate?_eq_free (q : Queue) : q.allocate? = q.free.head?.map (·.buffer) := by
  simp [allocate?, free, List.head?_drop]

theorem allocate?_fill (q : Queue) (change : Buffer → Buffer) :
    (q.fill change).allocate? = q.allocate?.map change := by
  simp only [allocate?, fill, List.getElem?_modify_eq]
  cases q.slots[q.count]? <;> rfl

theorem free_pop {q : Queue} {p : Packet} (h : q.head? = some p) : q.pop.free = p :: q.free := by
  have hlist := toList_of_head h
  have hcount : q.pop.count = q.toList.tail.length := by simp [pop]
  have htake : q.toList.take 1 = [p] := by rw [hlist, List.take_one, List.head?_cons]; rfl
  rw [free, hcount]
  simp only [pop, List.drop_left, htake, List.singleton_append]

theorem count_of_head {q : Queue} {p : Packet} (h : q.head? = some p) :
    q.count = q.pop.count + 1 := by
  have hlength := congrArg List.length (toList_of_head h)
  rwa [List.length_cons, ← toList_pop, length_toList, length_toList] at hlength

theorem slots_pop_perm (q : Queue) : q.pop.slots.Perm q.slots := by
  have h : q.slots = q.toList.take 1 ++ (q.toList.tail ++ q.free) := by
    rw [← List.append_assoc, ← List.drop_one, List.take_append_drop]
    exact (List.take_append_drop ..).symm
  have hperm : (q.toList.tail ++ (q.toList.take 1 ++ q.free)).Perm
      (q.toList.take 1 ++ (q.toList.tail ++ q.free)) := by
    rw [← List.append_assoc, ← List.append_assoc]
    exact List.perm_append_comm.append_right _
  exact h ▸ hperm

theorem toList_append_free (q : Queue) : q.toList ++ q.free = q.slots := List.take_append_drop ..

theorem length_free (q : Queue) : q.toList.length + q.free.length = q.slots.length := by
  rw [← List.length_append, toList_append_free]

theorem isEmpty_iff (q : Queue) : q.isEmpty = true ↔ q.toList = [] := by
  rw [← List.length_eq_zero_iff, length_toList]
  simp [isEmpty]

theorem free_eq_nil_iff (q : Queue) : q.free = [] ↔ q.toList.length = q.slots.length := by
  rw [← List.length_eq_zero_iff]
  have hlen := q.length_free
  omega

theorem free_fill (q : Queue) (change : Buffer → Buffer) :
    (q.fill change).free = q.free.modifyHead fun p => { p with buffer := change p.buffer } := by
  have hcount : (q.slots.take q.count).length = q.count := q.length_toList
  show (q.slots.modify q.count _).drop q.count = _
  rw [List.modify_eq_take_drop]
  exact List.drop_left' hcount

section Push

variable {q : Queue} {header : Header} {length : UInt8} {slot : Packet} {spare : List Packet}

theorem push_of_full (h : q.free = []) : q.push header length = .error .queueFull := by
  have hfull := q.free_eq_nil_iff.1 h
  rw [length_toList] at hfull
  unfold push
  rw [dif_neg (by omega)]

theorem count_lt_of_free (h : q.free = slot :: spare) : q.count < q.slots.length := by
  have hlen := q.length_free
  rw [h, length_toList, List.length_cons] at hlen
  omega

theorem push_of_too_long (h : q.free = slot :: spare) (hlong : maxData < length.toNat) :
    q.push header length = .error .tooLong := by
  unfold push Packet.setLength
  rw [dif_pos (count_lt_of_free h), if_pos hlong]
  rfl

theorem push_of_fits (header : Header) (h : q.free = slot :: spare)
    (hfit : length.toNat ≤ maxData) : ∃ q', q.push header length = .ok q' ∧
      q'.toList = q.toList ++ [⟨header, length, slot.buffer⟩] ∧ q'.free = spare := by
  have hlt := count_lt_of_free h
  have hslot : q.slots[q.count] = slot := by
    rw [free, List.drop_eq_getElem_cons hlt] at h
    exact (List.cons.inj h).1
  have hset : (q.slots.set q.count { slot with header, length }) =
      (q.toList ++ [⟨header, length, slot.buffer⟩]) ++ spare := by
    have htail : q.slots.drop (q.count + 1) = spare := by
      rw [← List.tail_drop]
      exact congrArg List.tail h
    rw [List.set_eq_take_append_cons_drop, if_pos hlt, htail, List.append_assoc]
    rfl
  have hlen : (q.toList ++ [(⟨header, length, slot.buffer⟩ : Packet)]).length = q.count + 1 := by
    rw [List.length_append, length_toList, List.length_singleton]
  have hle (p : Packet) : q.count + 1 ≤ (q.slots.set q.count p).length := by
    rw [List.length_set]
    exact hlt
  have hpush : q.push header length = .ok ⟨q.slots.set q.count
      { q.slots[q.count] with header, length }, q.count + 1, hle _⟩ := by
    unfold push Packet.setLength
    rw [dif_pos hlt, if_neg (Nat.not_lt.2 hfit)]
    rfl
  refine ⟨_, hpush, ?_, ?_⟩
  · simp only [toList, hslot, hset]
    exact List.take_left' hlen
  · simp only [free, hslot, hset]
    exact List.drop_left' hlen

end Push

end Queue

end StarNet
