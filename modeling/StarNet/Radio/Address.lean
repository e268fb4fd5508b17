/-!
The on-air address of a group: four base bytes that all groups share, and the group itself. The
radio sends addresses high bit first, so its registers hold them with the bits reversed.
-/
namespace StarNet.Radio

def reverseBits (word : UInt32) : UInt32 := ⟨word.toBitVec.reverse⟩

def wordOfBytes (b0 b1 b2 b3 : UInt8) : UInt32 :=
  ⟨b3.toBitVec ++ b2.toBitVec ++ b1.toBitVec ++ b0.toBitVec⟩

def byteOfWord (word : UInt32) (i : Nat) : UInt8 := ⟨word.toBitVec.extractLsb' (8 * i) 8⟩

def swapBytes (word : UInt32) : UInt32 :=
  wordOfBytes (byteOfWord word 3) (byteOfWord word 2) (byteOfWord word 1) (byteOfWord word 0)

/-- Reverses the bits of every byte and leaves the bytes in place. -/
def reverseBitsInBytes (word : UInt32) : UInt32 := swapBytes (reverseBits word)

inductive AddressError where
  | invalidChannel
  deriving DecidableEq, Repr

def AddressError.message : AddressError → String
  | .invalidChannel => "invalid rf_channel"

structure Address where
  /-- First byte first. -/
  base : Vector UInt8 4
  group : UInt8
  channel : UInt8
  deriving DecidableEq

namespace Address

def size : Nat := 5

def maxChannel : UInt8 := 100

def make (base : Vector UInt8 4) (group channel : UInt8) : Except AddressError Address :=
  if maxChannel < channel then .error .invalidChannel else .ok ⟨base, group, channel⟩

def ofGroup (group : UInt8) : Address := ⟨.replicate 4 0xE7, group, 2⟩

def baseWord (a : Address) : UInt32 :=
  wordOfBytes a.base[0] a.base[1] a.base[2] a.base[3]

def baseRegister (a : Address) : UInt32 := reverseBits a.baseWord

def groupRegister (a : Address) : UInt32 := reverseBitsInBytes a.group.toUInt32

end Address

end StarNet.Radio
