import StarNet.Proofs.Checksum

/-!
Which bit errors a checksum finds. Checksums of messages of one length add up as the messages do,
so whether an altered message still fits its checksum depends on the flipped bits alone: the
message of the flips, checked from zero, must come out as zero. A burst of at most sixteen bits
never does, for the register is as long as the burst and every step can be undone. An odd number
of flips never does either: the polynomial has an even number of terms, so the register keeps
count of the parity of what went in.
-/
namespace StarNet

def parity (bits : List Bool) : Bool := bits.foldr xor false

theorem parity_cons {bit : Bool} {bits : List Bool} :
    parity (bit :: bits) = (bit ^^ parity bits) := rfl

theorem parity_concat_false {bits : List Bool} : parity (bits ++ [false]) = parity bits := by
  rw [parity, List.foldr_append, List.foldr_cons, List.foldr_nil, Bool.xor_false]
  rfl

theorem parity_zipWith {bits bits' : List Bool} (h : bits.length = bits'.length) :
    parity (List.zipWith xor bits bits') = (parity bits ^^ parity bits') := by
  induction bits generalizing bits' with
  | nil =>
    obtain rfl : bits' = [] := List.eq_nil_of_length_eq_zero h.symm
    rfl
  | cons bit bits ih =>
    obtain ⟨bit', bits', rfl⟩ := List.exists_cons_of_length_eq_add_one h.symm
    rw [List.zipWith_cons_cons, parity_cons, parity_cons, parity_cons, ih (Nat.succ.inj h)]
    simp only [Bool.xor_assoc, Bool.xor_left_comm]

theorem parity_eq_true_iff {bits : List Bool} : parity bits = true ↔ bits.count true % 2 = 1 := by
  induction bits with
  | nil => decide
  | cons bit bits ih =>
    rw [parity_cons]
    cases bit with
    | false => simpa using ih
    | true =>
      rw [List.count_cons_self, Bool.true_xor, Bool.not_eq_true', ← Bool.not_eq_true, ih]
      omega

namespace Checksum

variable {c d : Checksum} {bit bit' : Bool} {bits bits' : List Bool}

def feedback (bit : Bool) : Checksum := if bit then polynomial else 0

theorem addBit_eq : c.addBit bit = (c >>> 1) ^^^ feedback (c.getLsbD 0 ^^ bit) := by
  have hne : (c.getLsbD 0 != bit) = (c.getLsbD 0 ^^ bit) := rfl
  rw [addBit, hne, feedback]
  split
  · rfl
  · exact BitVec.xor_zero.symm

theorem feedback_xor : feedback (bit ^^ bit') = feedback bit ^^^ feedback bit' := by
  cases bit <;> cases bit' <;> decide

theorem addBit_xor : (c ^^^ d).addBit (bit ^^ bit') = c.addBit bit ^^^ d.addBit bit' := by
  have hlow : ((c ^^^ d).getLsbD 0 ^^ (bit ^^ bit')) =
      ((c.getLsbD 0 ^^ bit) ^^ (d.getLsbD 0 ^^ bit')) := by
    rw [BitVec.getLsbD_xor]
    simp only [Bool.xor_assoc, Bool.xor_left_comm]
  rw [addBit_eq, addBit_eq, addBit_eq, hlow, feedback_xor, BitVec.ushiftRight_xor_distrib]
  ac_rfl

theorem foldl_addBit_xor (h : bits.length = bits'.length) :
    (List.zipWith xor bits bits').foldl addBit (c ^^^ d) =
      bits.foldl addBit c ^^^ bits'.foldl addBit d := by
  induction bits generalizing bits' c d with
  | nil =>
    obtain rfl : bits' = [] := List.eq_nil_of_length_eq_zero h.symm
    rfl
  | cons bit bits ih =>
    obtain ⟨bit', bits', rfl⟩ := List.exists_cons_of_length_eq_add_one h.symm
    rw [List.zipWith_cons_cons, List.foldl_cons, List.foldl_cons, List.foldl_cons, addBit_xor]
    exact ih (Nat.succ.inj h)

theorem addBit_false_eq_zero : c.addBit false = 0 ↔ c = 0 := by
  constructor
  · intro h
    have hlow : c.getLsbD 0 = false := by
      have htop := congrArg (·.getLsbD 15) h
      rw [show (c.addBit false).getLsbD 15 = (c.getLsbD 0 != false) from getLsbD_last_addBit]
        at htop
      simpa using htop
    have hshift : c >>> 1 = 0 := by
      rw [← hlow, addBit_getLsbD_zero] at h
      exact h
    refine BitVec.eq_of_getLsbD_eq fun i _ => ?_
    cases i with
    | zero => simpa using hlow
    | succ i =>
      have hbit := congrArg (·.getLsbD i) hshift
      simpa [Nat.add_comm] using hbit
  · rintro rfl
    decide

theorem foldl_addBit_silent (h : ∀ bit ∈ bits, bit = false) :
    bits.foldl addBit c = 0 ↔ c = 0 := by
  induction bits generalizing c with
  | nil => rfl
  | cons bit bits ih =>
    obtain rfl := h bit List.mem_cons_self
    rw [List.foldl_cons, ih fun b hb => h b (List.mem_cons_of_mem _ hb), addBit_false_eq_zero]

theorem foldl_addBit_short (h : bits.length ≤ 16) (hzero : bits.foldl addBit 0 = 0) :
    ∀ bit ∈ bits, bit = false := by
  intro bit hbit
  rw [((foldl_addBit_eq_zero h).1 hzero).1, List.mem_map] at hbit
  obtain ⟨i, _, rfl⟩ := hbit
  exact BitVec.getLsbD_zero

def places (c : Checksum) : List Bool := (List.range 16).map c.getLsbD

theorem parity_places_xor : parity (c ^^^ d).places = (parity c.places ^^ parity d.places) := by
  have hlength : c.places.length = d.places.length := by
    rw [places, places, List.length_map, List.length_map]
  have hplaces : (c ^^^ d).places = List.zipWith xor c.places d.places := by
    rw [places, places, places, List.zipWith_map, List.zipWith_self]
    exact List.map_congr_left fun i _ => BitVec.getLsbD_xor
  rw [hplaces, parity_zipWith hlength]

theorem parity_places_shift : parity (places (c >>> 1)) = (parity c.places ^^ c.getLsbD 0) := by
  have hshift : places (c >>> 1) =
      (List.range 15).map (fun i => c.getLsbD (i + 1)) ++ [false] := by
    rw [places, List.range_succ, List.map_append, List.map_singleton, BitVec.getLsbD_ushiftRight,
      BitVec.getLsbD_of_ge c 16 (Nat.le_refl _)]
    refine congrArg (· ++ [false]) (List.map_congr_left fun i _ => ?_)
    rw [BitVec.getLsbD_ushiftRight, Nat.add_comm]
  have hplaces : c.places = c.getLsbD 0 :: (List.range 15).map fun i => c.getLsbD (i + 1) := by
    rw [places, List.range_succ_eq_map, List.map_cons, List.map_map]
    rfl
  rw [hshift, hplaces, parity_concat_false, parity_cons, Bool.xor_comm, ← Bool.xor_assoc,
    Bool.xor_self, Bool.false_xor]

/-- The polynomial has an odd number of terms besides the leading one, so the register takes up
the parity of each bit that goes in. -/
theorem parity_addBit : parity (c.addBit bit).places = (parity c.places ^^ bit) := by
  have hfeedback : ∀ b, parity (feedback b).places = b := by decide
  rw [addBit_eq, parity_places_xor, parity_places_shift, hfeedback, Bool.xor_assoc,
    ← Bool.xor_assoc (c.getLsbD 0), Bool.xor_self, Bool.false_xor]

theorem parity_foldl_addBit :
    parity (bits.foldl addBit c).places = (parity c.places ^^ parity bits) := by
  induction bits generalizing c with
  | nil => exact (Bool.xor_false _).symm
  | cons bit bits ih => rw [List.foldl_cons, ih, parity_addBit, Bool.xor_assoc, parity_cons]

end Checksum

/-- The bits in which two messages differ, in the order in which a checksum takes them. -/
def flips (bytes bytes' : List UInt8) : List Bool :=
  List.zipWith xor (bitsOfBytes bytes) (bitsOfBytes bytes')

/-- Some bits are flipped, and all of them lie among sixteen that follow one another. -/
def Burst (flips : List Bool) : Prop :=
  true ∈ flips ∧ ∃ first, ∀ i, flips[i]? = some true → first ≤ i ∧ i < first + 16

/-- The flips the checksum is chosen to find. -/
def Detectable (flips : List Bool) : Prop := Burst flips ∨ flips.count true % 2 = 1

variable {flipped : List Bool} {bytes bytes' : List UInt8}

theorem Burst.foldl_addBit_ne_zero (h : Burst flipped) :
    flipped.foldl Checksum.addBit 0 ≠ 0 := by
  obtain ⟨htrue, first, hwindow⟩ := h
  intro hzero
  have hsplit : flipped =
      flipped.take first ++ ((flipped.drop first).take 16 ++ flipped.drop (first + 16)) := by
    rw [← List.drop_drop, List.take_append_drop, List.take_append_drop]
  have hbefore : ∀ bit ∈ flipped.take first, bit = false := by
    intro bit hbit
    obtain ⟨i, hi⟩ := List.mem_iff_getElem?.1 hbit
    have hlt : i < first := Nat.lt_of_lt_of_le
      (List.getElem?_eq_some_iff.1 hi).1 (List.length_take_le ..)
    rw [List.getElem?_take_of_lt hlt] at hi
    refine Bool.eq_false_iff.2 fun hset => ?_
    have := (hwindow i (hset ▸ hi)).1
    omega
  have hbehind : ∀ bit ∈ flipped.drop (first + 16), bit = false := by
    intro bit hbit
    obtain ⟨i, hi⟩ := List.mem_iff_getElem?.1 hbit
    rw [List.getElem?_drop] at hi
    refine Bool.eq_false_iff.2 fun hset => ?_
    have := (hwindow _ (hset ▸ hi)).2
    omega
  rw [hsplit, List.foldl_append, List.foldl_append, Checksum.foldl_addBit_silent hbehind,
    (Checksum.foldl_addBit_silent hbefore).2 rfl] at hzero
  have hwithin := Checksum.foldl_addBit_short (List.length_take_le ..) hzero
  rw [hsplit, List.mem_append, List.mem_append] at htrue
  rcases htrue with htrue | htrue | htrue
  · exact Bool.noConfusion (hbefore true htrue)
  · exact Bool.noConfusion (hwithin true htrue)
  · exact Bool.noConfusion (hbehind true htrue)

theorem foldl_addBit_ne_zero_of_odd (h : flipped.count true % 2 = 1) :
    flipped.foldl Checksum.addBit 0 ≠ 0 := by
  intro hzero
  have hparity := @Checksum.parity_foldl_addBit 0 flipped
  rw [hzero, parity_eq_true_iff.2 h] at hparity
  exact absurd hparity (by decide)

theorem length_bitsOfBytes : (bitsOfBytes bytes).length = 8 * bytes.length := by
  induction bytes with
  | nil => rfl
  | cons b bytes ih =>
    have hcons : bitsOfBytes (b :: bytes) = bitsOfByte b ++ bitsOfBytes bytes := rfl
    rw [hcons, List.length_append, ih, List.length_cons, bitsOfByte, List.length_map,
      List.length_range]
    omega

theorem Detectable.checksum_ne_zero (h : Detectable (flips bytes bytes'))
    (hlength : bytes.length = bytes'.length) (hzero : checksum bytes = 0) :
    checksum bytes' ≠ 0 := by
  have hflips : (flips bytes bytes').foldl Checksum.addBit 0 ≠ 0 :=
    h.elim Burst.foldl_addBit_ne_zero foldl_addBit_ne_zero_of_odd
  have hadd : (flips bytes bytes').foldl Checksum.addBit (Checksum.start ^^^ Checksum.start) =
      checksum bytes ^^^ checksum bytes' := by
    rw [flips, Checksum.foldl_addBit_xor (by rw [length_bitsOfBytes, length_bitsOfBytes, hlength]),
      ← Checksum.addBytes_eq_foldl_bits, ← Checksum.addBytes_eq_foldl_bits]
    rfl
  intro hzero'
  rw [hzero, hzero', BitVec.xor_self, BitVec.xor_self] at hadd
  exact hflips hadd

end StarNet
