import StarNet.Medium

/-!
Signal quality from an analog input: ten bits, scaled down to a byte.
-/
namespace StarNet

class AnalogPin (P : Type) where
  read : P → UInt16 × P

/-- Four steps above 300 make one unit; the result is kept to a byte, so readings below 300
come out as large bytes. -/
def signalLevel (reading : UInt16) : UInt8 :=
  UInt8.ofInt ((((reading &&& 0x3FF).toNat : Int) - 300).fdiv 4)

structure AnalogSignal (P : Type) where
  pin : P

instance {P : Type} [AnalogPin P] : SignalSource (AnalogSignal P) where
  sample s :=
    let (reading, pin) := AnalogPin.read s.pin
    (signalLevel reading, ⟨pin⟩)

end StarNet
