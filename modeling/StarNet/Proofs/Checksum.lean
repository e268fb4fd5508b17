import StarNet.Frame.Checksum

/-!
What a checksum says about the bytes behind a message: checksum and message together come out as
zero exactly if the two bytes are the checksum of the message.
-/
namespace StarNet

namespace Checksum

variable {c : Checksum} {bit : Bool} {bits : List Bool} {low high : UInt8} {bytes : List UInt8}

theorem getLsbD_last_addBit : (c.addBit bit).getLsbD 15 = (c.getLsbD 0 != bit) := by
  have hshift : (c >>> 1).getLsbD 15 = false := by
    rw [BitVec.getLsbD_ushiftRight]
    exact BitVec.getLsbD_of_ge c 16 (Nat.le_refl _)
  unfold addBit
  split
  next h => rw [BitVec.getLsbD_xor, hshift, h]; rfl
  next h => rw [hshift, Bool.eq_false_iff.2 h]

theorem addBit_getLsbD_zero : c.addBit (c.getLsbD 0) = c >>> 1 := by
  rw [addBit, bne_self_eq_false, if_neg Bool.false_ne_true]

/-- As many bits as a checksum has, or fewer, take it to zero exactly if they are its low bits and
no other bit of it is set. -/
theorem foldl_addBit_eq_zero (h : bits.length ≤ 16) : bits.foldl addBit c = 0 ↔
    bits = (List.range bits.length).map c.getLsbD ∧ c >>> bits.length = 0 := by
  induction bits generalizing c with
  | nil => simp
  | cons bit bits ih =>
    rw [List.length_cons] at h
    have hmap : (List.range bits.length).map (c >>> 1).getLsbD =
        (List.range bits.length).map (c.getLsbD ∘ Nat.succ) :=
      List.map_congr_left fun i _ => by rw [BitVec.getLsbD_ushiftRight, Nat.add_comm]; rfl
    rw [List.foldl_cons, ih (by omega), List.length_cons, List.range_succ_eq_map, List.map_cons,
      List.map_map, List.cons.injEq, Nat.add_comm bits.length, BitVec.shiftRight_add, ← hmap]
    constructor
    · rintro ⟨hbits, hrest⟩
      have hlast : (c.addBit bit).getLsbD 15 = false := by
        have hbit := congrArg (·.getLsbD (15 - bits.length)) hrest
        simp only [BitVec.getLsbD_ushiftRight] at hbit
        rw [show bits.length + (15 - bits.length) = 15 by omega] at hbit
        exact hbit.trans BitVec.getLsbD_zero
      rw [getLsbD_last_addBit] at hlast
      obtain rfl : c.getLsbD 0 = bit := by simpa only [bne_eq_false_iff_eq] using hlast
      rw [addBit_getLsbD_zero] at hbits hrest
      exact ⟨⟨rfl, hbits⟩, hrest⟩
    · rintro ⟨⟨rfl, hbits⟩, hrest⟩
      rw [addBit_getLsbD_zero]
      exact ⟨hbits, hrest⟩

theorem getLsbD_ofBytes (i : Nat) : (ofBytes low high).getLsbD i =
    if i < 8 then low.toBitVec.getLsbD i else high.toBitVec.getLsbD (i - 8) := by
  rw [ofBytes, BitVec.getLsbD_append]

theorem bitsOfBytes_pair :
    bitsOfBytes [low, high] = (List.range 16).map (ofBytes low high).getLsbD := by
  simp only [bitsOfBytes, bitsOfByte, List.flatMap_cons, List.flatMap_nil, List.append_nil,
    funext getLsbD_ofBytes]
  rfl

theorem ext_bits {d : Checksum}
    (h : (List.range 16).map c.getLsbD = (List.range 16).map d.getLsbD) : c = d :=
  BitVec.eq_of_getLsbD_eq fun i hi => List.map_inj_left.1 h i (List.mem_range.2 hi)

theorem addBytes_pair_eq_zero : c.addBytes [low, high] = 0 ↔ ofBytes low high = c := by
  have hlength : (bitsOfBytes [low, high]).length = 16 := by
    rw [bitsOfBytes_pair, List.length_map, List.length_range]
  have hshift : c >>> 16 = 0 := BitVec.ushiftRight_eq_zero (Nat.le_refl _)
  rw [addBytes_eq_foldl_bits, foldl_addBit_eq_zero (Nat.le_of_eq hlength), hlength,
    bitsOfBytes_pair]
  exact ⟨fun h => ext_bits h.1, fun h => ⟨h ▸ rfl, hshift⟩⟩

theorem ofBytes_low_high : ofBytes c.low c.high = c := by
  refine BitVec.eq_of_getLsbD_eq fun i hi => ?_
  rw [getLsbD_ofBytes]
  split
  next h => simp [low, h]
  next h => simp [high, show i - 8 < 8 by omega, show 8 + (i - 8) = i by omega]

theorem low_ofBytes : (ofBytes low high).low = low := by
  refine UInt8.eq_of_toBitVec_eq (BitVec.eq_of_getLsbD_eq fun i hi => ?_)
  rw [Checksum.low, BitVec.getLsbD_setWidth, getLsbD_ofBytes, if_pos hi]
  simp [hi]

theorem high_ofBytes : (ofBytes low high).high = high := by
  refine UInt8.eq_of_toBitVec_eq (BitVec.eq_of_getLsbD_eq fun i hi => ?_)
  rw [Checksum.high, BitVec.getLsbD_setWidth, BitVec.getLsbD_ushiftRight, getLsbD_ofBytes,
    if_neg (by omega), Nat.add_sub_cancel_left]
  simp [hi]

theorem toBytes_inj {d : Checksum} : c.toBytes = d.toBytes ↔ c = d := by
  constructor
  · intro h
    obtain ⟨hlow, hhigh⟩ : c.low = d.low ∧ c.high = d.high := by simpa [toBytes] using h
    rw [← @ofBytes_low_high c, hlow, hhigh, ofBytes_low_high]
  · exact fun h => h ▸ rfl

theorem ofBytes_eq_iff : ofBytes low high = c ↔ [low, high] = c.toBytes := by
  constructor
  · rintro rfl
    rw [toBytes, low_ofBytes, high_ofBytes]
  · intro h
    obtain ⟨rfl, rfl⟩ : low = c.low ∧ high = c.high := by simpa [toBytes] using h
    exact ofBytes_low_high

theorem exists_toBytes : ∀ {bytes : List UInt8}, bytes.length = 2 →
    ∃ c : Checksum, c.toBytes = bytes
  | [low, high], _ => ⟨ofBytes low high, (ofBytes_eq_iff.1 rfl).symm⟩

def avoidsZero (b : UInt8) : Nat → Checksum → Bool
  | 0, _ => true
  | n + 1, c => c.addByte b != 0 && avoidsZero b n (c.addByte b)

theorem addBytes_replicate_ne_zero {b : UInt8} {n k : Nat} (h : avoidsZero b n c = true)
    (hk : k < n) : c.addBytes (List.replicate (k + 1) b) ≠ 0 := by
  induction n generalizing c k with
  | zero => exact absurd hk (Nat.not_lt_zero k)
  | succ n ih =>
    obtain ⟨hne, hrest⟩ := Bool.and_eq_true_iff.1 h
    rw [List.replicate_succ]
    change (c.addByte b).addBytes (List.replicate k b) ≠ 0
    cases k with
    | zero => exact bne_iff_ne.1 hne
    | succ k => exact ih hrest (Nat.lt_of_succ_lt_succ hk)

end Checksum

/-- The first two of erased bytes take the checksum to zero, and as many more as any region of
blocks has never take it there again. -/
theorem checksum_erased_ne_zero {n : Nat} (h : 2 < n) (hle : n ≤ 1026) :
    checksum (List.replicate n 0xFF) ≠ 0 := by
  obtain ⟨k, rfl⟩ : ∃ k, n = 2 + (k + 1) := ⟨n - 3, by omega⟩
  have hzero : Checksum.start.addBytes (List.replicate 2 0xFF) = 0 := by decide +kernel
  rw [checksum, ← List.replicate_append_replicate, Checksum.addBytes_append, hzero]
  have hclear : Checksum.avoidsZero 0xFF 1024 0 = true := by decide +kernel
  exact Checksum.addBytes_replicate_ne_zero hclear (by omega)

theorem checksum_append_pair_eq_zero {bytes : List UInt8} {low high : UInt8} :
    checksum (bytes ++ [low, high]) = 0 ↔ [low, high] = (checksum bytes).toBytes := by
  rw [checksum, Checksum.addBytes_append, Checksum.addBytes_pair_eq_zero, Checksum.ofBytes_eq_iff,
    ← checksum]

end StarNet
