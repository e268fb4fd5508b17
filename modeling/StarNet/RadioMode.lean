/-!
The operating modes of a radio, each stored as one byte.
-/
namespace StarNet

inductive RadioMode where
  /-- Full power, fast bit rate. -/
  | normal
  /-- Low power, fast bit rate, for the bench. -/
  | low
  /-- Full power, slow bit rate, for range. -/
  | slow
  deriving DecidableEq, Repr, Inhabited

namespace RadioMode

def byte : RadioMode → UInt8
  | normal => 1
  | low => 2
  | slow => 3

def ofByte? (b : UInt8) : Option RadioMode :=
  if b = 1 then some normal else if b = 2 then some low else if b = 3 then some slow else none

def name : RadioMode → String
  | normal => "Normal"
  | low => "Low"
  | slow => "Slow"

theorem ofByte?_byte (m : RadioMode) : ofByte? m.byte = some m := by
  cases m <;> rfl

theorem ofByte?_eq_some {b : UInt8} {m : RadioMode} : ofByte? b = some m ↔ b = m.byte := by
  constructor
  · unfold ofByte?
    intro h
    split at h
    · cases h; assumption
    · split at h
      · cases h; assumption
      · split at h
        · cases h; assumption
        · cases h
  · rintro rfl
    exact ofByte?_byte m

end RadioMode

end StarNet
