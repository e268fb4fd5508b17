import StarNet.Analog

/-!
Analog pins with readings set from outside.
-/
namespace StarNet.Bench

structure CyclicPin where
  readings : List UInt16

instance : AnalogPin CyclicPin where
  read p :=
    match p.readings with
    | reading :: later => (reading, ⟨later ++ [reading]⟩)
    | [] => (0, p)

structure ScriptedPin where
  readings : List UInt16
  last : UInt16

instance : AnalogPin ScriptedPin where
  read p :=
    match p.readings with
    | reading :: readings => (reading, { p with readings })
    | [] => (p.last, p)

def samples {S : Type} [SignalSource S] : Nat → S → List UInt8 × S
  | 0, s => ([], s)
  | n + 1, s =>
    let (level, s) := SignalSource.sample s
    let (levels, s) := samples n s
    (level :: levels, s)

end StarNet.Bench
