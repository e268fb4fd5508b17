import StarNet.Proofs.Config.Bounds
import StarNet.Proofs.Config.Corruption

/-!
The checksum behind the blocks. One loop checks it and another renews it, and they end at different
addresses. Each asks its storage for the bytes of its range chunk by chunk, every byte once, so what
a check accepts is exactly what a renewal stores.
-/
namespace StarNet

variable {bytes bytes' data : List UInt8} {address length : Nat}

theorem slice_congr (h : ∀ i, address ≤ i → i < address + length → bytes'[i]? = bytes[i]?) :
    slice bytes' address length = slice bytes address length := by
  refine List.ext_getElem? fun i => ?_
  simp only [slice, List.getElem?_take, List.getElem?_drop]
  by_cases hi : i < length
  · rw [if_pos hi, if_pos hi]
    exact h (address + i) (Nat.le_add_right ..) (Nat.add_lt_add_left hi address)
  · rw [if_neg hi, if_neg hi]

theorem slice_splice (h : address + data.length ≤ bytes.length) :
    slice (splice bytes address data) address data.length = data := by
  have hfront : (bytes.take address).length = address :=
    List.length_take_of_le (Nat.le_trans (Nat.le_add_right ..) h)
  have hslice := slice_append (bytes.take address) data (bytes.drop (address + data.length))
  rwa [hfront, ← List.append_assoc] at hslice

theorem getElem?_splice (h : address + data.length ≤ bytes.length) {i : Nat}
    (hi : i < address ∨ address + data.length ≤ i) :
    (splice bytes address data)[i]? = bytes[i]? := by
  have hfront : (bytes.take address).length = address :=
    List.length_take_of_le (Nat.le_trans (Nat.le_add_right ..) h)
  have hbehind : (bytes.take address ++ data).length = address + data.length := by
    rw [List.length_append, hfront]
  rw [splice]
  rcases hi with hi | hi
  · rw [List.append_assoc, List.getElem?_append_left (hfront.symm ▸ hi),
      List.getElem?_take_of_lt hi]
  · rw [List.getElem?_append_right (hbehind.symm ▸ hi), hbehind, List.getElem?_drop,
      Nat.add_sub_cancel' hi]

inductive Access where
  | read (address length : Nat)
  | write (address : Nat) (data : List UInt8)
  deriving DecidableEq, Repr

structure Audited (S : Type) where
  storage : S
  accesses : List Access := []
  deriving DecidableEq

instance {S : Type} [Storage S] : Storage (Audited S) where
  capacity a := Storage.capacity a.storage
  read a address length := (Storage.read a.storage address length).map fun (bytes, storage) =>
    (bytes, ⟨storage, a.accesses ++ [.read address length]⟩)
  write a address data := (Storage.write a.storage address data).map fun storage =>
    ⟨storage, a.accesses ++ [.write address data]⟩

structure Chunk where
  address : Nat
  length : Nat
  deriving DecidableEq, Repr

namespace Chunk

def addresses (c : Chunk) : List Nat := List.range' c.address c.length

def access (c : Chunk) : Access := .read c.address c.length

end Chunk

/-- The chunks in which a loop goes from an address up to another: every byte in between is in one
of them, once and in order, and a chunk is as long as can be. -/
structure Covers (chunks : List Chunk) (address stop : Nat) : Prop where
  addresses : chunks.flatMap Chunk.addresses = List.range' address (stop - address)
  length : ∀ c ∈ chunks, 0 < c.length ∧ c.length = min (stop - c.address) ConfigStore.chunkSize

theorem Covers.nil {stop : Nat} (h : stop ≤ address) : Covers [] address stop where
  addresses := by
    rw [Nat.sub_eq_zero_of_le h]
    rfl
  length := nofun

theorem Covers.cons {stop : Nat} {chunks : List Chunk} (hlt : address < stop)
    (h : Covers chunks (address + min (stop - address) ConfigStore.chunkSize) stop) :
    Covers (⟨address, min (stop - address) ConfigStore.chunkSize⟩ :: chunks) address stop where
  addresses := by
    rw [List.flatMap_cons, h.addresses, Chunk.addresses, List.range'_append_1, Nat.sub_add_eq,
      Nat.add_sub_cancel' (Nat.min_le_left ..)]
  length := by
    intro c hc
    rcases List.mem_cons.1 hc with rfl | hc
    · exact ⟨Nat.lt_min.2 ⟨Nat.sub_pos_of_lt hlt, by decide⟩, rfl⟩
    · exact h.length c hc

namespace ConfigStore

variable {S α β : Type} {s : ConfigStore S}

def audited (s : ConfigStore S) (accesses : List Access) : ConfigStore (Audited S) where
  storage := ⟨s.storage, accesses⟩
  slots := s.slots

/-- A program does the same under audit, and these are the accesses that go on record. -/
def Asks (m : StoreM S α) (m' : StoreM (Audited S) α) (s : ConfigStore S)
    (accesses : List Access) : Prop :=
  ∀ before, m'.run (s.audited before) =
    (m.run s).map fun (a, t) => (a, t.audited (before ++ accesses))

theorem Asks.pure (a : α) : Asks (Pure.pure a) (Pure.pure a) s [] := by
  intro before
  rw [List.append_nil]
  rfl

theorem Asks.bind {m : StoreM S α} {m' : StoreM (Audited S) α} {f : α → StoreM S β}
    {f' : α → StoreM (Audited S) β} {first second : List Access} (h : Asks m m' s first)
    (hf : ∀ a t, m.run s = .ok (a, t) → Asks (f a) (f' a) t second) :
    Asks (m >>= f) (m' >>= f') s (first ++ second) := by
  intro before
  rw [StateT.run_bind, StateT.run_bind, h before]
  cases hrun : m.run s with
  | error fault => rfl
  | ok r =>
    have hrest := hf r.1 r.2 hrun (before ++ first)
    rw [List.append_assoc] at hrest
    exact hrest

theorem Asks.of_get {f : ConfigStore S → StoreM S α}
    {f' : ConfigStore (Audited S) → StoreM (Audited S) α} {accesses : List Access}
    (h : ∀ before, Asks (f s) (f' (s.audited before)) s accesses) :
    Asks (get >>= f) (get >>= f') s accesses :=
  fun before => h before before

variable [Storage S]

theorem readBytes_asks (address length : Nat) :
    Asks (readBytes address length) (readBytes address length) s [.read address length] := by
  intro before
  simp only [readBytes, StateT.run_bind, StateT.run_get, pure_bind, StateT.run_monadLift]
  have hread : Storage.read (s.audited before).storage address length =
      (Storage.read s.storage address length).map fun (bytes, storage) =>
        (bytes, ⟨storage, before ++ [.read address length]⟩) := rfl
  rw [hread]
  cases Storage.read s.storage address length <;> rfl

theorem writeBytes_asks (address : Nat) (data : List UInt8) :
    Asks (writeBytes address data) (writeBytes address data) s [.write address data] := by
  intro before
  simp only [writeBytes, StateT.run_bind, StateT.run_get, pure_bind, StateT.run_monadLift]
  have hwrite : Storage.write (s.audited before).storage address data =
      (Storage.write s.storage address data).map fun storage =>
        ⟨storage, before ++ [.write address data]⟩ := rfl
  rw [hwrite]
  cases Storage.write s.storage address data <;> rfl

/-- Which bytes a loop asks for is up to its range alone. -/
theorem digest_asks (address stop : Nat) : ∃ chunks, Covers chunks address stop ∧
    ∀ (s : ConfigStore S) (c : Checksum),
      Asks (digest address stop c) (digest address stop c) s (chunks.map Chunk.access) := by
  induction hn : stop - address using Nat.strongRecOn generalizing address with
  | ind n ih =>
    by_cases hlt : address < stop
    · have hpos : 0 < min (stop - address) chunkSize :=
        Nat.lt_min.2 ⟨Nat.sub_pos_of_lt hlt, by decide⟩
      obtain ⟨chunks, hcovers, hrest⟩ :=
        ih (stop - (address + min (stop - address) chunkSize)) (by omega) _ rfl
      refine ⟨_, hcovers.cons hlt, fun s c => ?_⟩
      rw [digest, if_pos hlt, digest, if_pos hlt]
      exact (readBytes_asks _ _).bind fun bytes t _ => hrest t (c.addBytes bytes)
    · refine ⟨[], .nil (Nat.not_lt.1 hlt), fun s c => ?_⟩
      rw [digest, if_neg hlt, digest, if_neg hlt]
      exact .pure c

theorem intact_asks (fits : s.fits = true) : ∃ chunks,
    Covers chunks Layout.base (s.blocksEnd + Layout.checksumSize) ∧
      Asks intact intact s (chunks.map Chunk.access) := by
  obtain ⟨chunks, hcovers, hdigest⟩ :=
    digest_asks (S := S) Layout.base (s.blocksEnd + Layout.checksumSize)
  refine ⟨chunks, hcovers, .of_get fun before => ?_⟩
  have fits' : (s.audited before).fits = true := fits
  rw [if_pos fits, if_pos fits', ← List.append_nil (chunks.map _)]
  exact (hdigest s .start).bind fun c _ _ => .pure (c == 0)

variable [Bytewise S]

def blockBytes (s : ConfigStore S) : List UInt8 :=
  slice s.bytes Layout.base (Layout.blocksLength s.slots)

def storedChecksum (s : ConfigStore S) : List UInt8 :=
  slice s.bytes s.blocksEnd Layout.checksumSize

theorem region_eq (s : ConfigStore S) : s.region = s.blockBytes ++ s.storedChecksum :=
  (slice_append_slice ..).symm

/-- Blocks and checksum come out as zero together exactly if the one is that of the others. -/
theorem checksum_region_eq_zero (fits : s.fits = true) :
    checksum s.region = 0 ↔ s.storedChecksum = (checksum s.blockBytes).toBytes := by
  have hlength : s.storedChecksum.length = 2 := length_slice (fits_iff.1 fits)
  obtain ⟨sum, hsum⟩ := Checksum.exists_toBytes hlength
  rw [region_eq, ← hsum]
  exact checksum_append_pair_eq_zero

theorem intact_runs (fits : s.fits = true) : ∃ valid t, intact.run s = .ok (valid, t) ∧
    t.slots = s.slots ∧ t.bytes = s.bytes ∧
    (valid = true ↔ s.storedChecksum = (checksum s.blockBytes).toBytes) := by
  obtain ⟨t, hrun, hslots, hbytes⟩ := intact_yields s
  refine ⟨_, t, hrun, hslots, hbytes, ?_⟩
  rw [fits, Bool.true_and, beq_iff_eq]
  exact checksum_region_eq_zero fits

/-- The two bytes behind the blocks have become the checksum of the blocks, and nothing else has
changed. -/
structure Sealed (s t : ConfigStore S) : Prop extends Altered s t where
  elsewhere : ∀ i, i < s.blocksEnd ∨ s.blocksEnd + Layout.checksumSize ≤ i →
    t.bytes[i]? = s.bytes[i]?
  stored : t.storedChecksum = (checksum s.blockBytes).toBytes

theorem Sealed.blockBytes_eq {t : ConfigStore S} (h : Sealed s t) :
    t.blockBytes = s.blockBytes := by
  rw [blockBytes, blockBytes, h.slots]
  exact slice_congr fun i _ hi => h.elsewhere i (.inl hi)

theorem Sealed.intact {t : ConfigStore S} (h : Sealed s t) (fits : s.fits = true) :
    ∃ u, ConfigStore.intact.run t = .ok (true, u) := by
  have fits' := h.toAltered.fits_eq.trans fits
  refine intact_iff.2 ⟨fits', (checksum_region_eq_zero fits').2 ?_⟩
  rw [h.blockBytes_eq]
  exact h.stored

theorem renewChecksum_runs (fits : s.fits = true) :
    ∃ t, renewChecksum.run s = .ok ((), t) ∧ Sealed s t := by
  have hend := fits_iff.1 fits
  have hlength : s.blocksEnd + (checksum s.blockBytes).toBytes.length ≤ s.bytes.length := hend
  obtain ⟨t, hrun, hslots, hbytes⟩ := renewChecksum_yields hend
  rw [← blockBytes] at hbytes
  refine ⟨t, hrun, ⟨hslots, ?_⟩, fun i hi => ?_, ?_⟩
  · rw [hbytes, length_splice hlength]
  · rw [hbytes, getElem?_splice hlength hi]
  · have hstop : t.blocksEnd = s.blocksEnd := by rw [blocksEnd, blocksEnd, hslots]
    rw [storedChecksum, hstop, hbytes]
    exact slice_splice hlength

theorem renewChecksum_asks (fits : s.fits = true) : ∃ chunks,
    Covers chunks Layout.base s.blocksEnd ∧ Asks renewChecksum renewChecksum s
      (chunks.map Chunk.access ++ [.write s.blocksEnd (checksum s.blockBytes).toBytes]) := by
  obtain ⟨chunks, hcovers, hdigest⟩ := digest_asks (S := S) Layout.base s.blocksEnd
  refine ⟨chunks, hcovers, .of_get fun before => ?_⟩
  have fits' : (s.audited before).fits = true := fits
  rw [if_pos fits, if_pos fits']
  refine (hdigest s .start).bind fun c t hrun => ?_
  obtain ⟨t', hrun', -⟩ := digest_blocks_yields (Nat.le_of_add_right_le (fits_iff.1 fits))
  obtain ⟨rfl, -⟩ := Prod.mk.inj (Except.ok.inj (hrun'.symm.trans hrun))
  exact writeBytes_asks _ _

/-- Let blocks and checksum fit in a storage, whatever bytes it holds. A check ends, changes nothing
and answers whether the two bytes behind the blocks are the checksum of the blocks. A renewal ends
and makes them so, whereupon the check passes; it changes no other byte. Each of the two loops asks
for every byte of its range once, in chunks as long as can be: the check for the blocks and the two
bytes, the renewal for the blocks, before it writes. -/
theorem check_accepts_what_renewal_stores (fits : s.fits = true) :
    (∃ valid t, intact.run s = .ok (valid, t) ∧ t.slots = s.slots ∧ t.bytes = s.bytes ∧
      (valid = true ↔ s.storedChecksum = (checksum s.blockBytes).toBytes)) ∧
    (∃ t, renewChecksum.run s = .ok ((), t) ∧ Sealed s t ∧
      ∃ u, intact.run t = .ok (true, u)) ∧
    (∃ chunks, Covers chunks Layout.base (s.blocksEnd + Layout.checksumSize) ∧
      Asks intact intact s (chunks.map Chunk.access)) ∧
    ∃ chunks, Covers chunks Layout.base s.blocksEnd ∧ Asks renewChecksum renewChecksum s
      (chunks.map Chunk.access ++ [.write s.blocksEnd (checksum s.blockBytes).toBytes]) := by
  refine ⟨intact_runs fits, ?_, intact_asks fits, renewChecksum_asks fits⟩
  obtain ⟨t, hrun, hsealed⟩ := renewChecksum_runs fits
  exact ⟨t, hrun, hsealed, hsealed.intact fits⟩

/-- A block of fifteen bytes, and behind it the bytes of its checksum the wrong way round. The first
of these ends a chunk and the second one begins another. -/
def straddled : ConfigStore Memory where
  storage := ⟨List.replicate 32 0xFF ++ List.replicate 15 7 ++ [0x7E, 0x02, 0xAA]⟩
  slots := [⟨5, 32, 15⟩]

theorem straddled_check_accepts_what_renewal_stores :
    (∃ t, intact.run straddled = .ok (false, t)) ∧
    (∃ t, renewChecksum.run straddled = .ok ((), t) ∧ t.storedChecksum = [0x02, 0x7E] ∧
      t.bytes[49]? = some 0xAA ∧ ∃ u, intact.run t = .ok (true, u)) ∧
    ∃ chunks, Covers chunks 32 49 ∧ Asks intact intact straddled (chunks.map Chunk.access) := by
  obtain ⟨⟨valid, t, hrun, -, -, hvalid⟩, ⟨t', hrun', hsealed, hintact⟩, hasks, -⟩ :=
    check_accepts_what_renewal_stores (s := straddled) (by decide)
  refine ⟨⟨t, ?_⟩, ⟨t', hrun', hsealed.stored.trans (by decide +kernel), ?_, hintact⟩, hasks⟩
  · have hwrong : ¬ straddled.storedChecksum = (checksum straddled.blockBytes).toBytes := by
      decide +kernel
    rw [hrun, Bool.eq_false_iff.2 fun h => hwrong (hvalid.1 h)]
  · exact hsealed.elsewhere 49 (.inr (by decide))

/-- With no blocks at all the bytes that an erased storage has behind them pass for a checksum. -/
example : (intact.run ({ storage := .erased 34 } : ConfigStore Memory)).toOption.map (·.1) =
    some true := by decide +kernel

end ConfigStore
end StarNet
