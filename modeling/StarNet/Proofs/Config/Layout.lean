import StarNet.Config.Layout

/-!
Laying out blocks is choosing those that get a slot and putting them back to back. What is chosen
is called a plan here: the ids of the modules with a slot, and the sizes of their blocks.
-/
namespace StarNet

abbrev Plan := List (UInt8 × Nat)

def Slot.entry (slot : Slot) : UInt8 × Nat := (slot.moduleId, slot.size)

namespace Layout

variable {capacity address room : Nat} {blocks : List (UInt8 × Nat)} {plan before after : Plan}
  {id : UInt8} {size : Nat}

/-- Puts the blocks of a plan back to back from an address on. -/
def place (address : Nat) : Plan → List Slot
  | [] => []
  | (id, size) :: plan => ⟨id, address, size⟩ :: place (address + size) plan

def total : Plan → Nat
  | [] => 0
  | (_, size) :: plan => size + total plan

theorem map_entry_place : (place address plan).map Slot.entry = plan := by
  induction plan generalizing address with
  | nil => rfl
  | cons e plan ih => rw [place, List.map_cons, ih]; rfl

theorem blocksLength_place : blocksLength (place address plan) = total plan := by
  induction plan generalizing address with
  | nil => rfl
  | cons e plan ih =>
    rw [total, ← @ih (address + e.2)]
    rfl

theorem blocksLength_le {slots : List Slot} (h : ∀ slot ∈ slots, slot.size ≤ maxBlock) :
    blocksLength slots ≤ slots.length * maxBlock := by
  induction slots with
  | nil => exact Nat.zero_le _
  | cons slot slots ih =>
    have hrest := ih fun slot hslot => h slot (List.mem_cons_of_mem _ hslot)
    have hslot := h slot List.mem_cons_self
    rw [List.length_cons, Nat.add_one_mul]
    simp only [blocksLength, List.foldr_cons] at hrest ⊢
    omega

theorem slotsFrom_cons (capacity address room : Nat) (block : UInt8 × Nat) (blocks : Plan) :
    (block.2 = 0 ∨ maxBlock < block.2 ∨ capacity < address + block.2 + checksumSize) ∧
      slotsFrom capacity address room (block :: blocks) = slotsFrom capacity address room blocks ∨
    (0 < block.2 ∧ block.2 ≤ maxBlock ∧ address + block.2 + checksumSize ≤ capacity) ∧
      (room = 0 ∧ slotsFrom capacity address room (block :: blocks) = [] ∨
        ∃ k, room = k + 1 ∧ slotsFrom capacity address room (block :: blocks) =
          ⟨block.1, address, block.2⟩ :: slotsFrom capacity (address + block.2) k blocks) := by
  rw [slotsFrom]
  by_cases hskip : block.2 = 0 ∨ maxBlock < block.2 ∨
      capacity < address + block.2 + checksumSize
  · exact .inl ⟨hskip, if_pos hskip⟩
  · rw [if_neg hskip]
    refine .inr ⟨by omega, ?_⟩
    cases room with
    | zero => exact .inl ⟨rfl, rfl⟩
    | succ k => exact .inr ⟨k, rfl, rfl⟩

theorem place_entries_slotsFrom :
    place address ((slotsFrom capacity address room blocks).map Slot.entry) =
      slotsFrom capacity address room blocks := by
  induction blocks generalizing address room with
  | nil => rfl
  | cons block blocks ih =>
    rcases slotsFrom_cons capacity address room block blocks with
      ⟨-, hskip⟩ | ⟨-, ⟨-, hfull⟩ | ⟨k, -, htake⟩⟩
    · rw [hskip, ih]
    · rw [hfull]
      rfl
    · rw [htake, List.map_cons, Slot.entry, place, ih]

theorem entries_slotsFrom_sublist :
    ((slotsFrom capacity address room blocks).map Slot.entry).Sublist blocks := by
  induction blocks generalizing address room with
  | nil => exact List.Sublist.slnil
  | cons block blocks ih =>
    rcases slotsFrom_cons capacity address room block blocks with
      ⟨-, hskip⟩ | ⟨-, ⟨-, hfull⟩ | ⟨k, -, htake⟩⟩
    · rw [hskip]
      exact ih.cons block
    · rw [hfull]
      exact List.nil_sublist _
    · rw [htake]
      exact ih.cons_cons block

theorem end_slotsFrom_le (h : slotsFrom capacity address room blocks ≠ []) :
    address + blocksLength (slotsFrom capacity address room blocks) + checksumSize ≤ capacity := by
  induction blocks generalizing address room with
  | nil => exact absurd rfl h
  | cons block blocks ih =>
    rcases slotsFrom_cons capacity address room block blocks with
      ⟨-, hskip⟩ | ⟨⟨-, -, hfit⟩, ⟨-, hfull⟩ | ⟨k, -, htake⟩⟩
    · rw [hskip] at h ⊢
      exact ih h
    · exact absurd hfull h
    · rw [htake]
      by_cases hrest : slotsFrom capacity (address + block.2) k blocks = []
      · rw [hrest]
        exact hfit
      · have hend := ih hrest
        simp only [blocksLength, List.foldr_cons] at hend ⊢
        omega

theorem size_of_mem_slotsFrom {slot : Slot} (h : slot ∈ slotsFrom capacity address room blocks) :
    0 < slot.size ∧ slot.size ≤ maxBlock := by
  induction blocks generalizing address room with
  | nil => cases h
  | cons block blocks ih =>
    rcases slotsFrom_cons capacity address room block blocks with
      ⟨-, hskip⟩ | ⟨⟨hpos, hmax, -⟩, ⟨-, hfull⟩ | ⟨k, -, htake⟩⟩
    · rw [hskip] at h
      exact ih h
    · rw [hfull] at h
      cases h
    · rw [htake] at h
      rcases List.mem_cons.1 h with rfl | h
      · exact ⟨hpos, hmax⟩
      · exact ih h

/-- Where a layout goes on once it is through with some blocks. -/
def cursor (capacity address room : Nat) : Plan → Nat
  | [] => address
  | (_, size) :: blocks =>
    if size = 0 ∨ maxBlock < size ∨ capacity < address + size + checksumSize then
      cursor capacity address room blocks
    else if room = 0 then address
    else cursor capacity (address + size) (room - 1) blocks

theorem cursor_eq : cursor capacity address room blocks =
    address + blocksLength (slotsFrom capacity address room blocks) := by
  induction blocks generalizing address room with
  | nil => rfl
  | cons block blocks ih =>
    rw [cursor, slotsFrom]
    split
    · exact ih
    · split
      · rfl
      · rw [ih, Nat.add_assoc]
        rfl

theorem length_slotsFrom_le : (slotsFrom capacity address room blocks).length ≤ room := by
  induction blocks generalizing address room with
  | nil => exact Nat.zero_le room
  | cons block blocks ih =>
    rcases slotsFrom_cons capacity address room block blocks with
      ⟨-, hskip⟩ | ⟨-, ⟨-, hfull⟩ | ⟨k, rfl, htake⟩⟩
    · rw [hskip]
      exact ih
    · rw [hfull]
      exact Nat.zero_le room
    · rw [htake]
      exact Nat.succ_le_succ ih

theorem blocksLength_slotsFrom (h : slotsFrom capacity address room blocks ≠ []) :
    0 < blocksLength (slotsFrom capacity address room blocks) ∧
      blocksLength (slotsFrom capacity address room blocks) ≤ room * maxBlock := by
  have hsizes := @size_of_mem_slotsFrom capacity address room blocks
  have hlength := @length_slotsFrom_le capacity address room blocks
  generalize slotsFrom capacity address room blocks = slots at h hsizes hlength
  refine ⟨?_, Nat.le_trans ?_ (Nat.mul_le_mul_right maxBlock hlength)⟩
  · obtain ⟨slot, rest, rfl⟩ := List.exists_cons_of_ne_nil h
    exact Nat.add_pos_left (hsizes List.mem_cons_self).1 _
  · exact blocksLength_le fun slot hslot => (hsizes hslot).2

theorem blocksLength_append (first second : List Slot) :
    blocksLength (first ++ second) = blocksLength first + blocksLength second := by
  induction first with
  | nil => exact (Nat.zero_add _).symm
  | cons slot first ih =>
    rw [List.cons_append, blocksLength, List.foldr_cons, ← blocksLength, ih, blocksLength,
      blocksLength, blocksLength, List.foldr_cons]
    omega

theorem address_of_place {first second : List Slot} {slot : Slot}
    (h : place address plan = first ++ slot :: second) :
    slot.address = address + blocksLength first := by
  induction first generalizing address plan with
  | nil =>
    cases plan with
    | nil => cases h
    | cons e plan =>
      obtain ⟨rfl, -⟩ := List.cons.inj h
      rfl
  | cons head first ih =>
    cases plan with
    | nil => cases h
    | cons e plan =>
      obtain ⟨rfl, hrest⟩ := List.cons.inj h
      rw [ih hrest, Nat.add_assoc]
      rfl

theorem le_address_of_mem_place {slot : Slot} (h : slot ∈ place address plan) :
    address ≤ slot.address := by
  obtain ⟨first, second, hsplit⟩ := List.append_of_mem h
  rw [address_of_place hsplit]
  exact Nat.le_add_right ..

theorem pairwise_place : (place address plan).Pairwise fun first second =>
    first.address + first.size ≤ second.address := by
  induction plan generalizing address with
  | nil => exact List.Pairwise.nil
  | cons e plan ih => exact List.Pairwise.cons (fun _ h => le_address_of_mem_place h) ih

theorem find_place_of_lookup_none (h : plan.lookup id = none) :
    (place address plan).find? (·.moduleId == id) = none := by
  induction plan generalizing address with
  | nil => rfl
  | cons e plan ih =>
    rw [List.lookup_cons] at h
    split at h
    · cases h
    next hne =>
      rw [place, List.find?_cons_of_neg, ih h]
      exact fun heq => ne_of_beq_false hne (eq_of_beq heq).symm

theorem find_place (h : id ∉ before.map Prod.fst) :
    (place address (before ++ (id, size) :: after)).find? (·.moduleId == id) =
      some ⟨id, address + total before, size⟩ := by
  induction before generalizing address with
  | nil => exact List.find?_cons_of_pos (beq_self_eq_true id)
  | cons e before ih =>
    obtain ⟨hne, hrest⟩ : ¬ id = e.1 ∧ id ∉ before.map Prod.fst := by simpa using h
    rw [List.cons_append, place, List.find?_cons_of_neg, ih hrest, total, Nat.add_assoc]
    exact fun heq => hne (eq_of_beq heq).symm

end Layout
end StarNet
