/-!
The 16-bit cyclic redundancy check that guards serial frames and stored blocks: polynomial
x^16 + x^15 + x^2 + 1, low bit of each byte first, all ones to start with and nothing added at
the end. A message followed by its checksum, low byte first, has checksum zero.
-/
namespace StarNet

abbrev Checksum := BitVec 16

def bitsOfByte (b : UInt8) : List Bool := (List.range 8).map b.toBitVec.getLsbD

def bitsOfBytes (bytes : List UInt8) : List Bool := bytes.flatMap bitsOfByte

namespace Checksum

def start : Checksum := 0xFFFF

/-- The polynomial without its leading term, lowest power in the highest bit. -/
def polynomial : Checksum := 0xA001

/-- The next bit of a message; the bit shifted out decides, together with it, whether the
polynomial comes in. -/
def addBit (c : Checksum) (bit : Bool) : Checksum :=
  if c.getLsbD 0 != bit then (c >>> 1) ^^^ polynomial else c >>> 1

def addByte (c : Checksum) (b : UInt8) : Checksum := (bitsOfByte b).foldl addBit c

def addBytes (c : Checksum) (bytes : List UInt8) : Checksum := bytes.foldl addByte c

def low (c : Checksum) : UInt8 := ⟨c.setWidth 8⟩

def high (c : Checksum) : UInt8 := ⟨(c >>> 8).setWidth 8⟩

def ofBytes (low high : UInt8) : Checksum := high.toBitVec ++ low.toBitVec

def toBytes (c : Checksum) : List UInt8 := [c.low, c.high]

theorem addBytes_eq_foldl_bits (c : Checksum) (bytes : List UInt8) :
    c.addBytes bytes = (bitsOfBytes bytes).foldl addBit c := by
  induction bytes generalizing c with
  | nil => rfl
  | cons b bytes ih =>
    simp only [bitsOfBytes, List.flatMap_cons, List.foldl_append] at *
    exact ih (c.addByte b)

theorem addBytes_append (c : Checksum) (a b : List UInt8) :
    c.addBytes (a ++ b) = (c.addBytes a).addBytes b := List.foldl_append

end Checksum

def checksum (bytes : List UInt8) : Checksum := Checksum.start.addBytes bytes

end StarNet
