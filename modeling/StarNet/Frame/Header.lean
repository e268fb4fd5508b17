import StarNet.Identity

/-!
The header byte of a frame. Bit 7 says whether the node number names the destination or the
source, bit 6 marks a control frame, bit 5 asks for an acknowledgement, and the low five bits
hold the node number. A control frame that asks for no acknowledgement is itself one.
-/
namespace StarNet

structure Header where
  byte : UInt8
  deriving DecidableEq, Repr

namespace Header

def directedBit : UInt8 := 0x80
def controlBit : UInt8 := 0x40
def ackBit : UInt8 := 0x20
def nodeMask : UInt8 := 0x1F

instance : Inhabited Header := ⟨⟨0⟩⟩

/-- A data frame named after its source, heard by the whole group. -/
def fromNode (id : NodeId) : Header := ⟨id.number⟩

def toNode (id : NodeId) : Header := ⟨directedBit ||| id.number⟩

/-- Answers a frame that named `named`. A frame that named the local node is answered in the
local name, any other one is answered to the node it names. -/
def ackFor (named : UInt8) (own : NodeId) : Header :=
  if named = own.number then ⟨controlBit ||| own.number⟩
  else ⟨controlBit ||| directedBit ||| (named &&& nodeMask)⟩

def withoutAck (h : Header) : Header := ⟨h.byte &&& ~~~ackBit⟩

def withAck (h : Header) (ack : Bool) : Header :=
  if ack then ⟨h.byte ||| ackBit⟩ else h.withoutAck

def directed (h : Header) : Bool := h.byte &&& directedBit != 0

def control (h : Header) : Bool := h.byte &&& controlBit != 0

def wantsAck (h : Header) : Bool := h.byte &&& ackBit != 0

def node (h : Header) : UInt8 := h.byte &&& nodeMask

def describe (h : Header) : String :=
  let side := if h.directed then "dst:" else "src:"
  let kind := if h.control then " ctl" else ""
  let reply := if h.wantsAck then " ack" else ""
  "Header(" ++ side ++ toString h.node.toNat ++ kind ++ reply ++ ")"

theorem wantsAck_withoutAck (h : Header) : h.withoutAck.wantsAck = false := by
  simp [withoutAck, wantsAck, UInt8.and_assoc]

theorem withoutAck_of_wantsAck_eq_false {h : Header} (hw : h.wantsAck = false) :
    h.withoutAck = h := by
  have hb : h.byte &&& ackBit = 0 := by simpa [wantsAck] using hw
  have hx : h.byte &&& ~~~ackBit = h.byte ^^^ (h.byte &&& ackBit) := by
    rw [← UInt8.toBitVec_inj]
    simp only [UInt8.toBitVec_and, UInt8.toBitVec_not, UInt8.toBitVec_xor]
    ext i
    simp only [BitVec.getElem_and, BitVec.getElem_not, BitVec.getElem_xor]
    cases h.byte.toBitVec[i] <;> simp
  simp [withoutAck, hx, hb]

theorem number_and_mask (id : NodeId) : id.number &&& nodeMask = id.number := by
  rw [← UInt8.toNat_inj, UInt8.toNat_and]
  have hlt : id.number.toNat < 32 := Nat.lt_of_le_of_lt id.number_le (by decide)
  exact (Nat.and_two_pow_sub_one_eq_mod _ 5).trans (Nat.mod_eq_of_lt hlt)

theorem number_and_flag (id : NodeId) {flag : UInt8} (h : nodeMask &&& flag = 0) :
    id.number &&& flag = 0 := by
  rw [← number_and_mask id, UInt8.and_assoc, h, UInt8.and_zero]

theorem directed_fromNode (id : NodeId) : (fromNode id).directed = false := by
  simp [fromNode, directed, number_and_flag id (show nodeMask &&& directedBit = 0 by decide)]

theorem control_fromNode (id : NodeId) : (fromNode id).control = false := by
  simp [fromNode, control, number_and_flag id (show nodeMask &&& controlBit = 0 by decide)]

theorem wantsAck_fromNode (id : NodeId) : (fromNode id).wantsAck = false := by
  simp [fromNode, wantsAck, number_and_flag id (show nodeMask &&& ackBit = 0 by decide)]

theorem directed_withoutAck (h : Header) : h.withoutAck.directed = h.directed := by
  rw [directed, directed, withoutAck, UInt8.and_assoc]
  rfl

theorem control_withoutAck (h : Header) : h.withoutAck.control = h.control := by
  rw [control, control, withoutAck, UInt8.and_assoc]
  rfl

theorem or_and_flag (a b flag : UInt8) : (a ||| b) &&& flag = a &&& flag ||| b &&& flag :=
  UInt8.toBitVec_inj.1 BitVec.and_or_distrib_right

theorem directed_withAck (h : Header) (ack : Bool) : (h.withAck ack).directed = h.directed := by
  cases ack with
  | true =>
    have hbit : ackBit &&& directedBit = 0 := by decide
    simp [withAck, directed, or_and_flag, hbit]
  | false => exact directed_withoutAck h

theorem control_withAck (h : Header) (ack : Bool) : (h.withAck ack).control = h.control := by
  cases ack with
  | true =>
    have hbit : ackBit &&& controlBit = 0 := by decide
    simp [withAck, control, or_and_flag, hbit]
  | false => exact control_withoutAck h

theorem control_ackFor (named : UInt8) (own : NodeId) : (ackFor named own).control = true := by
  unfold ackFor control
  have hbit : controlBit &&& controlBit ||| directedBit &&& controlBit = controlBit := by decide
  split
  · simp only [or_and_flag, number_and_flag own (show nodeMask &&& controlBit = 0 by decide)]
    decide
  · simp only [or_and_flag, UInt8.and_assoc, hbit,
      show nodeMask &&& controlBit = 0 by decide, UInt8.and_zero]
    decide

theorem wantsAck_ackFor (named : UInt8) (own : NodeId) : (ackFor named own).wantsAck = false := by
  unfold ackFor wantsAck
  have hmask : nodeMask &&& ackBit = 0 := by decide
  split
  · simp only [or_and_flag, number_and_flag own hmask]
    decide
  · simp only [or_and_flag, UInt8.and_assoc, hmask, UInt8.and_zero]
    decide

theorem node_withAck (h : Header) (ack : Bool) : (h.withAck ack).node = h.node := by
  cases ack with
  | true =>
    have hbit : ackBit &&& nodeMask = 0 := by decide
    simp [withAck, node, or_and_flag, hbit]
  | false =>
    rw [node, node, withAck, if_neg Bool.false_ne_true, withoutAck, UInt8.and_assoc]
    rfl

theorem node_fromNode (id : NodeId) : (fromNode id).node = id.number := number_and_mask id

theorem node_toNode (id : NodeId) : (toNode id).node = id.number := by
  have hbit : directedBit &&& nodeMask = 0 := by decide
  simp [toNode, node, or_and_flag, hbit, number_and_mask]

theorem control_toNode (id : NodeId) : (toNode id).control = false := by
  have hbit : directedBit &&& controlBit = 0 := by decide
  simp [toNode, control, or_and_flag, hbit,
    number_and_flag id (show nodeMask &&& controlBit = 0 by decide)]

theorem node_ackFor (named own : NodeId) : (ackFor named.number own).node = named.number := by
  have hcontrol : controlBit &&& nodeMask = 0 := by decide
  have hdirected : directedBit &&& nodeMask = 0 := by decide
  unfold ackFor node
  split
  · rename_i h
    simp [or_and_flag, hcontrol, number_and_mask, h]
  · simp [or_and_flag, hcontrol, hdirected, number_and_mask]

end Header

end StarNet
