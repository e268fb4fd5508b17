import StarNet.ModuleId

/-!
The trace log: single-character notes on what a node does, buffered and shipped as the body of
a log frame. Notes past the capacity are lost.
-/
namespace StarNet

inductive Mark where
  | mediumReady
  | queued
  | held
  | sent
  | resent
  | received
  | acked
  | strayAck
  | reserved
  | badChecksum
  deriving DecidableEq, Repr

def Mark.char : Mark → Char
  | .mediumReady => '+'
  | .queued => '>'
  | .held => '-'
  | .sent => 'S'
  | .resent => 'X'
  | .received => 'R'
  | .acked => 'A'
  | .strayAck => 'a'
  | .reserved => 'y'
  | .badChecksum => 'C'

def Mark.code (m : Mark) : UInt8 := m.char.toUInt8

def traceDigit (n : UInt8) : UInt8 := '0'.toUInt8 + n

structure TraceLog where
  enabled : Bool
  notes : List UInt8 := []
  deriving DecidableEq, Repr

namespace TraceLog

def capacity : Nat := 60

def push (t : TraceLog) (note : UInt8) : TraceLog :=
  if t.enabled && t.notes.length < capacity then { t with notes := t.notes ++ [note] } else t

/-- Three quarters full: time to ship even between polls. -/
def nearlyFull (t : TraceLog) : Bool := 3 * capacity / 4 ≤ t.notes.length

/-- The payload to ship once half of the log is full, or on demand if there is any note. -/
def pending? (t : TraceLog) (force : Bool) : Option (List UInt8) :=
  if (force && 0 < t.notes.length) || capacity / 2 ≤ t.notes.length then
    some (ModuleId.log :: t.notes)
  else none

def clear (t : TraceLog) : TraceLog := { t with notes := [] }

theorem pending?_of_nearlyFull {t : TraceLog} (h : t.nearlyFull = true) (force : Bool) :
    t.pending? force = some (ModuleId.log :: t.notes) := by
  have h : 3 * capacity / 4 ≤ t.notes.length := by simpa [nearlyFull] using h
  have h : capacity / 2 ≤ t.notes.length := Nat.le_trans (by decide) h
  simp [pending?, h]

end TraceLog

end StarNet
