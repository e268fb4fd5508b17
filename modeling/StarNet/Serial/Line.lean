/-!
The two directions of a serial line. What comes in is a script of bytes and of things that go
wrong while asking for them; what goes out is taken by a `Transmitter`, a few bytes at a time.
-/
namespace StarNet.Serial

/-- What the line holds for the next attempt to read a byte. -/
inductive LineEvent where
  | byte (b : UInt8)
  | notReady
  /-- The line is ready but yields no byte. -/
  | readsNothing
  | readFails
  /-- Asking whether a byte is there fails. -/
  | readyFails
  deriving DecidableEq, Repr

class Transmitter (T : Type) where
  /-- Takes some of the leading bytes and answers how many, or nothing on a failure. -/
  write : T → List UInt8 → Option Nat × T
  /-- Waits until all is sent; false on a failure. -/
  flush : T → Bool × T
  /-- Whether a write would be taken now; nothing on a failure. -/
  ready? : T → Option Bool × T

inductive WriteResult where
  | done
  | failed
  /-- A write took no byte and did not fail either. -/
  | stalled
  deriving DecidableEq, Repr

section

variable {T : Type} [Transmitter T]

def writeAll (line : T) (bytes : List UInt8) : WriteResult × T :=
  match bytes with
  | [] => (.done, line)
  | b :: rest =>
    match Transmitter.write line (b :: rest) with
    | (none, line) => (.failed, line)
    | (some 0, line) => (.stalled, line)
    | (some (n + 1), line) => writeAll line (rest.drop n)
termination_by bytes.length
decreasing_by simp only [List.length_drop, List.length_cons]; omega

def writeParts (line : T) : List (List UInt8) → WriteResult × T
  | [] => (.done, line)
  | part :: parts =>
    match writeAll line part with
    | (.done, line) => writeParts line parts
    | result => result

end

end StarNet.Serial
