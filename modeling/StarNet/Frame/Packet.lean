import StarNet.Fault
import StarNet.Frame.Header

/-!
A packet in memory: header, length byte and a payload buffer of fixed size. The bytes of the
buffer past the length are kept, since a later length may uncover them.
-/
namespace StarNet

def maxData : Nat := 66

structure Buffer where
  bytes : List UInt8
  length_bytes : bytes.length = maxData
  deriving DecidableEq

namespace Buffer

attribute [simp] length_bytes

def zero : Buffer := ⟨List.replicate maxData 0, List.length_replicate⟩

instance : Inhabited Buffer := ⟨zero⟩

def set (b : Buffer) (i : Nat) (x : UInt8) : Buffer := ⟨b.bytes.set i x, by simp⟩

/-- Overwrites the bytes from `start` on; what would fall past the end is dropped. -/
def write (b : Buffer) (start : Nat) (data : List UInt8) : Buffer :=
  ⟨(b.bytes.take start ++ data ++ b.bytes.drop (start + data.length)).take maxData, by
    simp only [List.length_take, List.length_append, List.length_drop, length_bytes]
    omega⟩

theorem take_maxData (b : Buffer) : b.bytes.take maxData = b.bytes :=
  List.take_of_length_le (Nat.le_of_eq b.length_bytes)

@[ext] theorem ext {a b : Buffer} (h : a.bytes = b.bytes) : a = b := by
  cases a; cases b; cases h; rfl

theorem write_nil (b : Buffer) (start : Nat) : b.write start [] = b := by
  ext1
  simp only [write, List.append_nil, List.length_nil, Nat.add_zero, List.take_append_drop,
    take_maxData]

theorem write_set (b : Buffer) (x : UInt8) (data : List UInt8) {i : Nat} (h : i < maxData) :
    (b.set i x).write (i + 1) data = b.write i (x :: data) := by
  have hi : i < b.bytes.length := by rwa [length_bytes]
  have htake : (b.bytes.take i ++ [x]).length = i + 1 := by
    rw [List.length_append, List.length_take_of_le (Nat.le_of_lt hi), List.length_singleton]
  have hset : b.bytes.set i x = (b.bytes.take i ++ [x]) ++ b.bytes.drop (i + 1) := by
    rw [List.set_eq_take_append_cons_drop, if_pos hi, List.append_assoc, List.singleton_append]
  have hskip : (b.bytes.set i x).drop (i + 1 + data.length) =
      b.bytes.drop (i + (data.length + 1)) := by
    rw [← List.drop_drop, hset, List.drop_left' htake, List.drop_drop]
    congr 1
    omega
  ext1
  simp only [write, set, hskip]
  rw [hset, List.take_left' htake]
  simp only [List.append_assoc, List.length_cons, List.cons_append, List.nil_append]

end Buffer

structure Packet where
  header : Header := ⟨0⟩
  length : UInt8 := 0
  buffer : Buffer := .zero
  deriving DecidableEq, Inhabited

namespace Packet

/-- A packet as found in raw memory: the length byte is not checked, and the bytes after `data`
are zero. -/
def ofMemory (header : Header) (length : UInt8) (data : List UInt8) : Packet :=
  ⟨header, length, Buffer.zero.write 0 data⟩

/-- A length byte beyond the buffer counts as the whole buffer. -/
def payload (p : Packet) : List UInt8 := p.buffer.bytes.take p.length.toNat

def module? (p : Packet) : Option UInt8 := p.payload.head?

def setLength (p : Packet) (length : UInt8) : Except SendError Packet :=
  if length.toNat > maxData then .error .tooLong else .ok { p with length }

def setPayload (p : Packet) (payload : List UInt8) : Except SendError Packet :=
  if payload.length > maxData then .error .tooLong
  else .ok { p with length := payload.length.toUInt8, buffer := p.buffer.write 0 payload }

def frame (p : Packet) : List UInt8 := p.header.byte :: p.length :: p.payload

def memory (p : Packet) : List UInt8 := p.header.byte :: p.length :: p.buffer.bytes

def payloadOffset : Nat := 2

theorem length_payload_le (p : Packet) : p.payload.length ≤ maxData := by
  rw [payload, List.length_take, Buffer.length_bytes]
  exact Nat.min_le_right ..

theorem payload_write {header : Header} {length : UInt8} {buffer : Buffer} {data : List UInt8}
    (hlength : length.toNat = data.length) (hfit : data.length ≤ maxData) :
    (Packet.mk header length (buffer.write 0 data)).payload = data := by
  simp only [payload, hlength, Buffer.write, List.take_zero, List.nil_append, List.take_take]
  rw [Nat.min_eq_left hfit]
  exact List.take_left

theorem toNat_length_toUInt8 {data : List UInt8} (hfit : data.length ≤ maxData) :
    data.length.toUInt8.toNat = data.length := by
  simp only [maxData] at hfit
  simp only [Nat.toUInt8_eq, UInt8.toNat_ofNat']
  omega

theorem setPayload_of_le {p : Packet} {data : List UInt8} (hfit : data.length ≤ maxData) :
    p.setPayload data =
      .ok { p with length := data.length.toUInt8, buffer := p.buffer.write 0 data } := by
  rw [setPayload, if_neg (Nat.not_lt.2 hfit)]

theorem payload_setPayload {p q : Packet} {data : List UInt8} (h : p.setPayload data = .ok q) :
    q.payload = data := by
  by_cases hfit : data.length ≤ maxData
  · rw [setPayload_of_le hfit] at h
    cases h
    exact payload_write (toNat_length_toUInt8 hfit) hfit
  · rw [setPayload, if_pos (Nat.not_le.1 hfit)] at h
    cases h

end Packet

end StarNet
