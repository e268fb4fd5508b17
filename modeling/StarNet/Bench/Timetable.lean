import StarNet.Medium

/-!
A medium that keeps to a timetable, whatever a node asks of it or gives it to send.
-/
namespace StarNet

/-- A medium that is free and hands over frames by turns, beside any clock and any source of
signals. It counts the questions and keeps what it was given, which decides nothing. -/
structure Timetable (C S : Type) where
  free : Nat → Bool
  inbound : Nat → Reception
  turn : Nat := 0
  clock : C
  signal : S
  questions : Nat := 0
  sent : List Transmission := []

namespace Timetable

variable {C S : Type}

def next (w : Timetable C S) : Timetable C S := { w with turn := w.turn + 1 }

instance : Medium (Timetable C S) where
  enabled _ := true
  configure w _ _ := w
  canSend w := (w.free w.turn, { w with questions := w.questions + 1 })
  transmit w t := .ok { w with sent := w.sent ++ [t] }
  receive w := (w.inbound w.turn, w)

/-- The polls of a flush are turns of their own. -/
instance [Clock C] : Clock (Timetable C S) where
  now w :=
    let (time, clock) := Clock.now w.clock
    (time, { w with clock })
  pause w := { w.next with clock := Clock.pause w.clock }

instance [SignalSource S] : SignalSource (Timetable C S) where
  sample w :=
    let (level, signal) := SignalSource.sample w.signal
    (level, { w with signal })

end Timetable
end StarNet
