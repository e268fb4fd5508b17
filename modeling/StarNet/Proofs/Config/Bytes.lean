import StarNet.Config.Store

/-!
The programs of the store in terms of the bytes stored. A storage is as good as its bytes if it
holds as many as it says, and reads and replaces them where it is told to.
-/
namespace StarNet

def slice (bytes : List UInt8) (address length : Nat) : List UInt8 :=
  (bytes.drop address).take length

def splice (bytes : List UInt8) (address : Nat) (data : List UInt8) : List UInt8 :=
  bytes.take address ++ data ++ bytes.drop (address + data.length)

theorem le_length_append {n : Nat} {block : List UInt8} (front back : List UInt8)
    (h : n ≤ block.length) : front.length + n ≤ (front ++ (block ++ back)).length := by
  rw [List.length_append, List.length_append]
  omega

theorem slice_append (front block back : List UInt8) :
    slice (front ++ (block ++ back)) front.length block.length = block := by
  rw [slice, List.drop_left, List.take_left]

theorem splice_append {block data : List UInt8} (front back : List UInt8)
    (h : data.length ≤ block.length) : splice (front ++ (block ++ back)) front.length data =
      front ++ ((data ++ block.drop data.length) ++ back) := by
  rw [splice, List.take_left, ← List.drop_drop, List.drop_left, List.drop_append_of_le_length h,
    List.append_assoc, List.append_assoc]

theorem splice_append_of_length_eq {block data : List UInt8} (front back : List UInt8)
    (h : data.length = block.length) :
    splice (front ++ (block ++ back)) front.length data = front ++ (data ++ back) := by
  rw [splice_append front back (Nat.le_of_eq h), h, List.drop_length, List.append_nil]

theorem length_slice {bytes : List UInt8} {address length : Nat}
    (h : address + length ≤ bytes.length) : (slice bytes address length).length = length := by
  rw [slice, List.length_take, List.length_drop]
  omega

theorem slice_append_slice (bytes : List UInt8) (address n m : Nat) :
    slice bytes address n ++ slice bytes (address + n) m = slice bytes address (n + m) := by
  rw [slice, slice, slice, ← List.drop_drop, List.take_add]

/-- A storage of fixed capacity that keeps its bytes. -/
class Bytewise (S : Type) [Storage S] where
  bytes : S → List UInt8
  capacity_eq : ∀ s, Storage.capacity s = (bytes s).length
  read_slice : ∀ {s address length}, address + length ≤ (bytes s).length → ∃ s',
    Storage.read s address length = .ok (slice (bytes s) address length, s') ∧ bytes s' = bytes s
  write_splice : ∀ {s address data}, address + data.length ≤ (bytes s).length → ∃ s',
    Storage.write s address data = .ok s' ∧ bytes s' = splice (bytes s) address data

instance : Bytewise Memory where
  bytes m := m.bytes
  capacity_eq _ := rfl
  read_slice {m address length} h := by
    refine ⟨m, ?_, rfl⟩
    have hread : m.read address length = .ok (slice m.bytes address length) := if_pos h
    simp only [Storage.read, hread, bind, Except.bind, pure, Except.pure]
  write_splice h := ⟨_, if_pos h, rfl⟩

namespace ConfigStore

variable {S α β : Type} {s : ConfigStore S}

theorem run_bind {m : StoreM S α} {f : α → StoreM S β} {a : α} {s' : ConfigStore S}
    (h : m.run s = .ok (a, s')) : (m >>= f).run s = (f a).run s' := by
  rw [StateT.run_bind, h]
  rfl

theorem blocksEnd_sub (s : ConfigStore S) (n : Nat) :
    s.blocksEnd + n - Layout.base = Layout.blocksLength s.slots + n := by
  rw [blocksEnd]
  omega

variable [Storage S] [Bytewise S]

def bytes (s : ConfigStore S) : List UInt8 := Bytewise.bytes s.storage

/-- Run from `s` the program ends, with this answer, and with these slots and bytes. -/
def Yields (m : StoreM S α) (s : ConfigStore S) (a : α) (slots : List Slot)
    (stored : List UInt8) : Prop :=
  ∃ s', m.run s = .ok (a, s') ∧ s'.slots = slots ∧ s'.bytes = stored

variable {slots : List Slot} {stored : List UInt8}

theorem Yields.pure (a : α) (hs : s.slots = slots) (hb : s.bytes = stored) :
    Yields (Pure.pure a) s a slots stored := ⟨s, rfl, hs, hb⟩

theorem Yields.bind {m : StoreM S α} {f : α → StoreM S β} {a : α} {b : β} {slots' : List Slot}
    {stored' : List UInt8} (h : Yields m s a slots stored)
    (hf : ∀ s', s'.slots = slots → s'.bytes = stored → Yields (f a) s' b slots' stored') :
    Yields (m >>= f) s b slots' stored' := by
  obtain ⟨s', hrun, hslots, hbytes⟩ := h
  obtain ⟨s'', hrun', hslots', hbytes'⟩ := hf s' hslots hbytes
  exact ⟨s'', (run_bind hrun).trans hrun', hslots', hbytes'⟩

theorem Yields.of_get {f : ConfigStore S → StoreM S α} {a : α}
    (h : Yields (f s) s a slots stored) : Yields (get >>= f) s a slots stored := h

theorem readBytes_yields {address length : Nat} (h : address + length ≤ s.bytes.length) :
    Yields (readBytes address length) s (slice s.bytes address length) s.slots s.bytes := by
  obtain ⟨storage, hread, hbytes⟩ := Bytewise.read_slice h
  refine ⟨{ s with storage }, ?_, rfl, hbytes⟩
  simp only [readBytes, StateT.run_bind, StateT.run_get, pure_bind, StateT.run_monadLift, hread]
  rfl

theorem writeBytes_yields {address : Nat} {data : List UInt8}
    (h : address + data.length ≤ s.bytes.length) :
    Yields (writeBytes address data) s () s.slots (splice s.bytes address data) := by
  obtain ⟨storage, hwrite, hbytes⟩ := Bytewise.write_splice h
  refine ⟨{ s with storage }, ?_, rfl, hbytes⟩
  simp only [writeBytes, StateT.run_bind, StateT.run_get, pure_bind, StateT.run_monadLift, hwrite]
  rfl

omit [Bytewise S] in
theorem digest_chunk {address stop : Nat} (hlt : address < stop) (c : Checksum) :
    ∃ m, 0 < m ∧ m ≤ stop - address ∧ (digest address stop c : StoreM S Checksum) =
      readBytes address m >>= fun bytes => digest (address + m) stop (c.addBytes bytes) := by
  refine ⟨min (stop - address) chunkSize, ?_, Nat.min_le_left .., ?_⟩
  · simp only [chunkSize]
    omega
  · rw [digest, if_pos hlt]

omit [Bytewise S] in
theorem digest_done {address stop : Nat} (h : ¬ address < stop) (c : Checksum) :
    (digest address stop c : StoreM S Checksum) = pure c := by
  rw [digest, if_neg h]

/-- Chunk by chunk the checksum takes in every byte from `address` up to `stop`, once and in
order. -/
theorem digest_yields (address : Nat) {stop : Nat} (c : Checksum) (h : stop ≤ s.bytes.length) :
    Yields (digest address stop c) s (c.addBytes (slice s.bytes address (stop - address)))
      s.slots s.bytes := by
  induction hn : stop - address using Nat.strongRecOn generalizing address c s with
  | ind n ih =>
    by_cases hlt : address < stop
    · obtain ⟨m, hpos, hle, hdigest⟩ := digest_chunk (S := S) hlt c
      rw [hdigest]
      refine (readBytes_yields (by omega)).bind fun s' hslots hbytes => ?_
      have hrest := @ih (stop - (address + m)) (by omega) s' (address + m)
        (c.addBytes (slice s.bytes address m)) (by rwa [hbytes]) rfl
      rw [hbytes, hslots, ← Checksum.addBytes_append, slice_append_slice,
        show m + (stop - (address + m)) = n by omega] at hrest
      exact hrest
    · rw [digest_done hlt]
      obtain rfl : n = 0 := by omega
      exact .pure _ rfl rfl

theorem fits_iff : s.fits = true ↔ s.blocksEnd + Layout.checksumSize ≤ s.bytes.length := by
  rw [fits, Bytewise.capacity_eq, decide_eq_true_iff]
  rfl

theorem intact_yields (s : ConfigStore S) :
    Yields intact s (s.fits && checksum
      (slice s.bytes Layout.base (Layout.blocksLength s.slots + Layout.checksumSize)) == 0)
      s.slots s.bytes := by
  refine .of_get ?_
  by_cases hfits : s.fits
  · rw [if_pos hfits, hfits, Bool.true_and]
    have hdigest := digest_yields Layout.base .start (fits_iff.1 hfits)
    rw [blocksEnd_sub] at hdigest
    exact hdigest.bind fun s' hslots hbytes => .pure _ hslots hbytes
  · rw [if_neg hfits, Bool.eq_false_iff.2 hfits, Bool.false_and]
    exact .pure _ rfl rfl

theorem digest_blocks_yields (h : s.blocksEnd ≤ s.bytes.length) :
    Yields (digest Layout.base s.blocksEnd .start) s
      (checksum (slice s.bytes Layout.base (Layout.blocksLength s.slots))) s.slots s.bytes := by
  have hdigest := digest_yields Layout.base .start h
  have hlength := blocksEnd_sub s 0
  rw [Nat.add_zero, Nat.add_zero] at hlength
  rwa [hlength] at hdigest

theorem renewChecksum_yields (h : s.blocksEnd + Layout.checksumSize ≤ s.bytes.length) :
    Yields renewChecksum s () s.slots (splice s.bytes s.blocksEnd
      (checksum (slice s.bytes Layout.base (Layout.blocksLength s.slots))).toBytes) := by
  refine .of_get ?_
  rw [if_pos (fits_iff.2 h)]
  refine (digest_blocks_yields (Nat.le_of_add_right_le h)).bind fun s' hslots hbytes => ?_
  rw [← hslots, ← hbytes]
  exact writeBytes_yields (by rwa [hbytes])

end ConfigStore
end StarNet
