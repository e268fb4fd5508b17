import StarNet.Serial.Transceiver

/-!
The sending side of a serial line whose limits and failures are set from outside.
-/
namespace StarNet.Bench

structure UartLimits where
  /-- Bytes taken by one write at most, zero for no limit. -/
  chunk : Nat := 0
  /-- Bytes still taken in all, if limited. -/
  budget : Option Nat := none
  /-- With the budget spent, a write takes nothing rather than failing. -/
  stalls : Bool := false
  flushFails : Bool := false
  /-- The answer on being ready, nothing for a failure. -/
  ready? : Option Bool := some true

structure Uart where
  limits : UartLimits := {}
  recent : Array UInt8 := #[]
  /-- Bytes sent and not yet carried to the other end. -/
  onWire : Array UInt8 := #[]
  total : Nat := 0
  flushes : Nat := 0

def UartLimits.taken? (l : UartLimits) (length : Nat) : Option Nat :=
  let offered := if l.chunk = 0 then length else min l.chunk length
  match l.budget with
  | none => some offered
  | some 0 => if l.stalls then some 0 else none
  | some budget => some (min offered budget)

namespace Uart

def write (u : Uart) (bytes : List UInt8) : Option Nat × Uart :=
  match u.limits.taken? bytes.length with
  | none => (none, u)
  | some n =>
    let sent := (bytes.take n).toArray
    (some n, { u with
      limits := { u.limits with budget := u.limits.budget.map (· - n) }
      recent := u.recent ++ sent
      onWire := u.onWire ++ sent
      total := u.total + n })

instance : Serial.Transmitter Uart where
  write := write
  flush u := (!u.limits.flushFails, { u with flushes := u.flushes + 1 })
  ready? u := (u.limits.ready?, u)

end Uart

end StarNet.Bench
