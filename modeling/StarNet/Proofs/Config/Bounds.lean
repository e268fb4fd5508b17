import StarNet.Proofs.Config.PersistentMap

/-!
Where the store touches its storage. The bytes in front of the first block belong to others, and
an address has 16 bits. Whatever modules the store is laid out for, and however small or large the
storage is, its slots and every access lie between these bounds.
-/
namespace StarNet

namespace Layout

variable {capacity address length : Nat} {blocks : Plan}

/-- Some bytes of the storage behind those that belong to others, all with addresses of 16 bits. -/
def Within (capacity address length : Nat) : Prop :=
  base ≤ address ∧ address + length ≤ capacity ∧ address + length < UInt16.size

instance : Decidable (Within capacity address length) :=
  inferInstanceAs (Decidable (_ ∧ _))

/-- The slots that a layout may give to blocks of these ids and sizes. -/
structure WellLaid (capacity : Nat) (blocks : Plan) (slots : List Slot) : Prop where
  ordered : (slots.map Slot.entry).Sublist blocks
  contiguous : ∀ before slot after, slots = before ++ slot :: after →
    slot.address = base + blocksLength before
  stop : ∀ before slot, slots = before ++ [slot] →
    slot.address + slot.size = base + blocksLength slots
  sized : ∀ slot ∈ slots, 0 < slot.size ∧ slot.size ≤ maxBlock
  disjoint : slots.Pairwise fun first second => first.address + first.size ≤ second.address
  count : slots.length ≤ maxModules
  total : cursor capacity base maxModules blocks = base + blocksLength slots
  fits : slots ≠ [] → base + blocksLength slots + checksumSize ≤ capacity
  narrow : base + blocksLength slots + checksumSize < UInt16.size

theorem place_entries_slots (capacity : Nat) (blocks : Plan) :
    place base ((slots capacity blocks).map Slot.entry) = slots capacity blocks :=
  place_entries_slotsFrom

theorem slots_wellLaid : WellLaid capacity blocks (slots capacity blocks) where
  ordered := entries_slotsFrom_sublist
  contiguous before slot after hsplit :=
    address_of_place ((place_entries_slots capacity blocks).trans hsplit)
  stop before slot hsplit := by
    have haddress := address_of_place ((place_entries_slots capacity blocks).trans hsplit)
    rw [haddress, hsplit, blocksLength_append, Nat.add_assoc]
    rfl
  sized _ hslot := size_of_mem_slotsFrom hslot
  disjoint := by
    rw [← place_entries_slots]
    exact pairwise_place
  count := length_slotsFrom_le
  total := cursor_eq
  fits := end_slotsFrom_le
  narrow := by
    by_cases hnil : slots capacity blocks = []
    · rw [hnil]
      decide
    · have hlength := (blocksLength_slotsFrom hnil).2
      simp only [base, checksumSize, maxModules, maxBlock, slots, UInt16.size] at hlength ⊢
      omega

namespace WellLaid

variable {slots : List Slot} {slot : Slot}

theorem block_bounds (h : WellLaid capacity blocks slots) (hslot : slot ∈ slots) :
    base ≤ slot.address ∧ slot.address + slot.size ≤ base + blocksLength slots := by
  obtain ⟨before, after, hsplit⟩ := List.append_of_mem hslot
  have haddress := h.contiguous before slot after hsplit
  have hlength : blocksLength slots =
      blocksLength before + (slot.size + blocksLength after) := by
    rw [hsplit, blocksLength_append]
    rfl
  omega

theorem block_within (h : WellLaid capacity blocks slots) (hslot : slot ∈ slots) {length : Nat}
    (hlength : length ≤ slot.size) : Within capacity slot.address length := by
  obtain ⟨hbase, hend⟩ := h.block_bounds hslot
  have hfits := h.fits (List.ne_nil_of_mem hslot)
  have hnarrow := h.narrow
  refine ⟨hbase, ?_, ?_⟩ <;> omega

end WellLaid

end Layout

/-- A storage of fixed capacity that serves every access within the bounds. On any other it may do
what it likes. -/
class Serves (S : Type) [Storage S] : Prop where
  read_within : ∀ {s : S} {address length : Nat},
    Layout.Within (Storage.capacity s) address length → ∃ bytes s',
      Storage.read s address length = .ok (bytes, s') ∧ Storage.capacity s' = Storage.capacity s
  write_within : ∀ {s : S} {address : Nat} {data : List UInt8},
    Layout.Within (Storage.capacity s) address data.length → ∃ s',
      Storage.write s address data = .ok s' ∧ Storage.capacity s' = Storage.capacity s

theorem length_splice {bytes data : List UInt8} {address : Nat}
    (h : address + data.length ≤ bytes.length) :
    (splice bytes address data).length = bytes.length := by
  rw [splice, List.length_append, List.length_append, List.length_take, List.length_drop]
  omega

instance {S : Type} [Storage S] [Bytewise S] : Serves S where
  read_within {s address length} h := by
    have hend := h.2.1
    rw [Bytewise.capacity_eq] at hend
    obtain ⟨s', hread, hbytes⟩ := Bytewise.read_slice hend
    refine ⟨_, s', hread, ?_⟩
    rw [Bytewise.capacity_eq, Bytewise.capacity_eq, hbytes]
  write_within {s address data} h := by
    have hend := h.2.1
    rw [Bytewise.capacity_eq] at hend
    obtain ⟨s', hwrite, hbytes⟩ := Bytewise.write_splice hend
    refine ⟨s', hwrite, ?_⟩
    rw [Bytewise.capacity_eq, Bytewise.capacity_eq, hbytes, length_splice hend]

/-- A storage behind a fence: the first access that is not within the bounds breaks off. -/
structure Fenced (S : Type) where
  storage : S
  deriving DecidableEq

namespace Fenced

variable {S : Type} [Storage S]

def read (s : Fenced S) (address length : Nat) : Except Fault (List UInt8 × Fenced S) :=
  if Layout.Within (Storage.capacity s.storage) address length then
    (Storage.read s.storage address length).map fun (bytes, storage) => (bytes, ⟨storage⟩)
  else .error .storageRange

def write (s : Fenced S) (address : Nat) (data : List UInt8) : Except Fault (Fenced S) :=
  if Layout.Within (Storage.capacity s.storage) address data.length then
    (Storage.write s.storage address data).map fun storage => ⟨storage⟩
  else .error .storageRange

instance : Storage (Fenced S) where
  capacity s := Storage.capacity s.storage
  read := read
  write := write

instance [Serves S] : Serves (Fenced S) where
  read_within {s address length} h := by
    obtain ⟨bytes, storage, hread, hcapacity⟩ := Serves.read_within (s := s.storage) h
    refine ⟨bytes, ⟨storage⟩, ?_, hcapacity⟩
    have hfence : s.read address length = _ := if_pos h
    rw [hread] at hfence
    exact hfence
  write_within {s address data} h := by
    obtain ⟨storage, hwrite, hcapacity⟩ := Serves.write_within (s := s.storage) h
    refine ⟨⟨storage⟩, ?_, hcapacity⟩
    have hfence : s.write address data = _ := if_pos h
    rw [hwrite] at hfence
    exact hfence

end Fenced

/-- On some answers to its writes the program of a module breaks off with this fault. -/
def Persist.Fails {α : Type} (fault : Fault) : Persist α → Prop
  | .done _ => False
  | .fail fault' => fault' = fault
  | .write _ _ next => ∃ answer, (next answer).Fails fault

namespace StoreCommand

variable {α : Type} [Module α]

/-- A module breaks off with this fault while the command configures it. -/
def Fails (fault : Fault) : StoreCommand α → Prop
  | .restart modules =>
    ∃ m ∈ modules, ∃ block?, (Module.configure m block?).Fails fault
  | _ => False

/-- What the store is laid out for after a command. -/
def sizesAfter (blocks : Plan) : StoreCommand α → Plan
  | .restart modules => Module.sizes modules
  | _ => blocks

end StoreCommand

namespace ConfigStore

variable {S α β γ : Type} {s : ConfigStore S}

def Ends (m : StoreM S β) (s : ConfigStore S) (after : ConfigStore S → Prop)
    (fails : Fault → Prop) : Prop :=
  match m.run s with
  | .ok (_, s') => after s'
  | .error fault => fails fault

section

variable {after after' : ConfigStore S → Prop} {fails fails' : Fault → Prop} {m : StoreM S β}
  {f : β → StoreM S γ}

theorem Ends.pure (b : β) (h : after s) : Ends (Pure.pure b) s after fails := h

theorem Ends.bind (h : Ends m s after fails)
    (hf : ∀ b s', after s' → Ends (f b) s' after' fails) : Ends (m >>= f) s after' fails := by
  rw [Ends] at h ⊢
  rw [StateT.run_bind]
  cases hrun : m.run s with
  | error fault =>
    rw [hrun] at h
    exact h
  | ok r =>
    rw [hrun] at h
    exact hf r.1 r.2 h

theorem Ends.of_get {f : ConfigStore S → StoreM S β} (h : Ends (f s) s after fails) :
    Ends (get >>= f) s after fails := h

theorem Ends.mono (h : Ends m s after fails) (hfails : ∀ fault, fails fault → fails' fault) :
    Ends m s after fails' := by
  rw [Ends] at h ⊢
  cases hrun : m.run s with
  | error fault =>
    rw [hrun] at h
    exact hfails fault h
  | ok r =>
    rw [hrun] at h
    exact h

theorem Ends.mapM {τ : Type} {n : τ → StoreM S γ} {ts : List τ} (h : after s)
    (hn : ∀ t ∈ ts, ∀ s', after s' → Ends (n t) s' after fails) :
    Ends (ts.mapM n) s after fails := by
  induction ts generalizing s with
  | nil => exact h
  | cons t ts ih =>
    rw [List.mapM_cons]
    refine (hn t List.mem_cons_self s h).bind fun c s' h' => ?_
    refine (ih h' fun t ht => hn t (List.mem_cons_of_mem _ ht)).bind fun cs s'' h'' => ?_
    exact .pure _ h''

end

variable [Storage S] [Serves S] [Module α] {capacity : Nat} {blocks : Plan}
  {fails : Fault → Prop}

/-- The slots are those of blocks of these ids and sizes in a storage of this capacity. -/
structure LaidOut (capacity : Nat) (blocks : Plan) (s : ConfigStore S) : Prop where
  capacity_eq : Storage.capacity s.storage = capacity
  slots_eq : s.slots = Layout.slots capacity blocks

omit [Serves S] in
theorem LaidOut.wellLaid (h : LaidOut capacity blocks s) :
    Layout.WellLaid capacity blocks s.slots := by
  rw [h.slots_eq]
  exact Layout.slots_wellLaid

omit [Serves S] in
theorem LaidOut.slot_within (h : LaidOut capacity blocks s) {id : UInt8} {slot : Slot}
    (hslot : s.slot? id = some slot) {length : Nat} (hlength : length ≤ slot.size) :
    Layout.Within capacity slot.address length :=
  h.wellLaid.block_within (List.mem_of_find?_eq_some hslot) hlength

omit [Serves S] in
theorem LaidOut.end_bounds (h : LaidOut capacity blocks s) (hfits : s.fits = true) :
    s.blocksEnd + Layout.checksumSize ≤ capacity ∧
      s.blocksEnd + Layout.checksumSize < UInt16.size := by
  rw [fits, decide_eq_true_iff, h.capacity_eq] at hfits
  exact ⟨hfits, h.wellLaid.narrow⟩

theorem readBytes_ends (h : LaidOut capacity blocks s) {address length : Nat}
    (within : Layout.Within capacity address length) :
    Ends (readBytes address length) s (LaidOut capacity blocks) fails := by
  obtain ⟨bytes, storage, hread, hcapacity⟩ :=
    Serves.read_within (s := s.storage) (h.capacity_eq.symm ▸ within)
  have hrun : (readBytes address length).run s = .ok (bytes, { s with storage }) := by
    simp only [readBytes, StateT.run_bind, StateT.run_get, pure_bind, StateT.run_monadLift, hread]
    rfl
  rw [Ends, hrun]
  exact ⟨hcapacity.trans h.capacity_eq, h.slots_eq⟩

theorem writeBytes_ends (h : LaidOut capacity blocks s) {address : Nat} {data : List UInt8}
    (within : Layout.Within capacity address data.length) :
    Ends (writeBytes address data) s (LaidOut capacity blocks) fails := by
  obtain ⟨storage, hwrite, hcapacity⟩ :=
    Serves.write_within (s := s.storage) (h.capacity_eq.symm ▸ within)
  have hrun : (writeBytes address data).run s = .ok ((), { s with storage }) := by
    simp only [writeBytes, StateT.run_bind, StateT.run_get, pure_bind, StateT.run_monadLift, hwrite]
    rfl
  rw [Ends, hrun]
  exact ⟨hcapacity.trans h.capacity_eq, h.slots_eq⟩

theorem digest_ends (h : LaidOut capacity blocks s) {address stop : Nat} (c : Checksum)
    (hbase : Layout.base ≤ address) (hstop : stop ≤ capacity ∧ stop < UInt16.size) :
    Ends (digest address stop c) s (LaidOut capacity blocks) fails := by
  induction hn : stop - address using Nat.strongRecOn generalizing address c s with
  | ind n ih =>
    by_cases hlt : address < stop
    · obtain ⟨m, hpos, hle, hdigest⟩ := digest_chunk (S := S) hlt c
      rw [hdigest]
      have hwithin : Layout.Within capacity address m := by
        refine ⟨hbase, ?_, ?_⟩ <;> omega
      refine (readBytes_ends h hwithin).bind fun bytes s' h' => ?_
      exact ih (stop - (address + m)) (by omega) h' _ (by omega) rfl
    · rw [digest_done hlt]
      exact .pure _ h

theorem intact_ends (h : LaidOut capacity blocks s) :
    Ends intact s (LaidOut capacity blocks) fails := by
  refine .of_get ?_
  by_cases hfits : s.fits = true
  · rw [if_pos hfits]
    have hend := h.end_bounds hfits
    exact (digest_ends h .start (Nat.le_refl _) hend).bind fun _ _ h' => .pure _ h'
  · rw [if_neg hfits]
    exact .pure _ h

theorem renewChecksum_ends (h : LaidOut capacity blocks s) :
    Ends renewChecksum s (LaidOut capacity blocks) fails := by
  refine .of_get ?_
  by_cases hfits : s.fits = true
  · rw [if_pos hfits]
    obtain ⟨hcapacity, hnarrow⟩ := h.end_bounds hfits
    have hstop : s.blocksEnd ≤ capacity ∧ s.blocksEnd < UInt16.size := by omega
    refine (digest_ends h .start (Nat.le_refl _) hstop).bind fun c s' h' => ?_
    exact writeBytes_ends h' ⟨Nat.le_add_right .., hcapacity, hnarrow⟩
  · rw [if_neg hfits]
    exact .pure _ h

theorem write_ends (h : LaidOut capacity blocks s) (id : UInt8) (data : List UInt8) :
    Ends (write id data) s (LaidOut capacity blocks) fails := by
  refine .of_get ?_
  cases hslot : s.slot? id with
  | none => exact .pure _ h
  | some slot =>
    by_cases hlarge : slot.size < data.length
    · simp only [if_pos hlarge]
      exact .pure _ h
    · simp only [if_neg hlarge]
      refine (writeBytes_ends h (h.slot_within hslot (Nat.not_lt.1 hlarge))).bind fun _ s' h' => ?_
      exact (renewChecksum_ends h').bind fun _ _ h'' => .pure _ h''

theorem read_ends (h : LaidOut capacity blocks s) (id : UInt8) (buffer : List UInt8) :
    Ends (read id buffer) s (LaidOut capacity blocks) fails := by
  refine .of_get ?_
  cases hslot : s.slot? id with
  | none => exact .pure _ h
  | some slot =>
    by_cases hshort : buffer.length < slot.size
    · simp only [if_pos hshort]
      exact .pure _ h
    · simp only [if_neg hshort]
      refine (intact_ends h).bind fun valid s' h' => ?_
      cases valid with
      | false => exact .pure _ h'
      | true =>
        have hwithin := h.slot_within hslot (Nat.le_refl _)
        exact (readBytes_ends h' hwithin).bind fun _ _ h'' => .pure _ h''

theorem persist_ends (h : LaidOut capacity blocks s) (p : Persist β) :
    Ends (persist p) s (LaidOut capacity blocks) fun fault => p.Fails fault := by
  induction p generalizing s with
  | done b => exact .pure b h
  | fail fault => exact rfl
  | write id data next ih =>
    refine (write_ends h id data).bind fun answer s' h' => ?_
    exact (ih answer h').mono fun fault hfault => ⟨answer, hfault⟩

theorem configure_ends (h : LaidOut capacity blocks s) (valid : Bool) (module : α) :
    Ends (configure valid module) s (LaidOut capacity blocks) fun fault =>
      ∃ block?, (Module.configure module block?).Fails fault := by
  have hpersist : ∀ (block? : Option (List UInt8)) (s' : ConfigStore S),
      LaidOut capacity blocks s' → Ends (persist (Module.configure module block?)) s'
        (LaidOut capacity blocks) fun fault =>
          ∃ block?, (Module.configure module block?).Fails fault := by
    intro block? s' h'
    exact (persist_ends h' _).mono fun fault hfault => ⟨block?, hfault⟩
  refine .of_get ?_
  cases hslot : s.slot? (Module.moduleId module) with
  | none => exact hpersist none s h
  | some slot =>
    cases valid with
    | false => exact hpersist none s h
    | true =>
      have hwithin := h.slot_within hslot (Nat.le_refl _)
      exact (readBytes_ends h hwithin).bind fun bytes s' h' => hpersist (some bytes) s' h'

theorem init_ends (hcapacity : Storage.capacity s.storage = capacity) (modules : List α) :
    Ends (init modules) s (LaidOut capacity (Module.sizes modules)) fun fault =>
      ∃ m ∈ modules, ∃ block?, (Module.configure m block?).Fails fault := by
  have hlaid : LaidOut capacity (Module.sizes modules) (s.laidOutFor modules) := by
    refine ⟨hcapacity, ?_⟩
    rw [laidOutFor, hcapacity]
  rw [Ends, init_run]
  refine (intact_ends hlaid).bind fun valid s' h' => ?_
  refine (Ends.mapM h' fun m hm s'' h'' => ?_).bind fun _ _ h'' => .pure _ h''
  exact (configure_ends h'' valid m).mono fun fault hfault => ⟨m, hm, hfault⟩

omit [Serves S] in
theorem perform_restart (modules : List α) : perform (S := S) (.restart modules) = do
    let (valid, modules) ← init modules
    return .restarted valid modules := rfl

theorem restart_ends (hcapacity : Storage.capacity s.storage = capacity) (modules : List α) :
    Ends (perform (.restart modules)) s (LaidOut capacity (Module.sizes modules)) fun fault =>
      StoreCommand.Fails fault (.restart modules) := by
  rw [perform_restart]
  exact (init_ends hcapacity modules).bind fun _ _ h' => .pure _ h'

theorem perform_ends (h : LaidOut capacity blocks s) (command : StoreCommand α) :
    Ends (perform command) s (LaidOut capacity (command.sizesAfter blocks)) fun fault =>
      command.Fails fault := by
  cases command with
  | write id data => exact (write_ends h id data).bind fun _ _ h' => .pure _ h'
  | read id buffer => exact (read_ends h id buffer).bind fun _ _ h' => .pure _ h'
  | restart modules => exact restart_ends h.capacity_eq modules

theorem commands_end (h : LaidOut capacity blocks s) (commands : List (StoreCommand α)) :
    Ends (commands.mapM perform) s
      (LaidOut capacity (commands.foldl StoreCommand.sizesAfter blocks)) fun fault =>
        ∃ c ∈ commands, c.Fails fault := by
  induction commands generalizing s blocks with
  | nil => exact .pure _ h
  | cons command commands ih =>
    rw [List.mapM_cons, List.foldl_cons]
    refine ((perform_ends h command).mono fun fault hfault => ?_).bind fun answer s' h' => ?_
    · exact ⟨command, List.mem_cons_self, hfault⟩
    · refine ((ih h').mono fun fault hfault => ?_).bind fun answers s'' h'' => .pure _ h''
      obtain ⟨c, hc, hfails⟩ := hfault
      exact ⟨c, List.mem_cons_of_mem _ hc, hfails⟩

/-- Let a new store over a storage of any size and contents be laid out for whatever modules, and
be written and read in whatever order. All accesses lie within the bounds: on a storage that serves
no other, as on one that breaks off at any other, the run ends, unless a module breaks it off. The
slots are those of the last layout, well laid in the storage, the capacity of which is the same. -/
theorem store_stays_within_bounds (new : s.slots = []) (commands : List (StoreCommand α)) :
    (∀ answers s', (commands.mapM perform).run s = .ok (answers, s') →
      Storage.capacity s'.storage = Storage.capacity s.storage ∧
      Layout.WellLaid (Storage.capacity s.storage) (commands.foldl StoreCommand.sizesAfter [])
        s'.slots) ∧
    ∀ fault, (commands.mapM perform).run s = .error fault → ∃ c ∈ commands, c.Fails fault := by
  have hstart : LaidOut (Storage.capacity s.storage) [] s := ⟨rfl, new⟩
  have hends := commands_end hstart commands
  rw [Ends] at hends
  constructor
  · intro answers s' hrun
    rw [hrun] at hends
    exact ⟨hends.capacity_eq, hends.wellLaid⟩
  · intro fault hrun
    rw [hrun] at hends
    exact hends

section Probes

open Bench

/-- A block too many, none, one too large and one that ends with the storage. -/
def crowdedProbes : List Probe :=
  [{ id := 7, size := 2, onNone := [(7, [0xAA, 0xBB]), (9, [1, 2])] }, { id := 8, size := 0 },
    { id := 9, size := 65 }, { id := 7, size := 4 }, { id := 9, size := 1, onNone := [(9, [5])] }]

def crowdedRun : List (StoreCommand Probe) :=
  [.write 7 [1], .restart [], .read 7 [0], .restart crowdedProbes, .write 9 [6], .read 7 [0, 0, 0]]

theorem crowded_store_stays_within_bounds : ∃ answers s',
    (crowdedRun.mapM ConfigStore.perform).run
      ({ storage := ⟨.erased 37⟩ } : ConfigStore (Fenced Memory)) = .ok (answers, s') ∧
    s'.slots = [⟨7, 32, 2⟩, ⟨9, 34, 1⟩] ∧
    Layout.WellLaid 37 (Module.sizes crowdedProbes) s'.slots := by
  have hslots : ((crowdedRun.mapM ConfigStore.perform).run
      ({ storage := ⟨.erased 37⟩ } : ConfigStore (Fenced Memory))).toOption.map (·.2.slots) =
        some [⟨7, 32, 2⟩, ⟨9, 34, 1⟩] := by decide +kernel
  cases hrun : (crowdedRun.mapM ConfigStore.perform).run
      ({ storage := ⟨.erased 37⟩ } : ConfigStore (Fenced Memory)) with
  | error fault =>
    rw [hrun] at hslots
    cases hslots
  | ok r =>
    rw [hrun] at hslots
    obtain ⟨-, hlaid⟩ := (store_stays_within_bounds rfl crowdedRun).1 r.1 r.2 hrun
    exact ⟨r.1, r.2, rfl, Option.some.inj hslots, hlaid⟩

end Probes

end ConfigStore
end StarNet
