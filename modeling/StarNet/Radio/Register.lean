/-!
The registers of the radio: what is stored at each, and what has been written, oldest first.
-/
namespace StarNet.Radio

inductive Register where
  | taskSend
  | taskReceive
  | taskDisable
  | eventAddress
  | eventEnd
  | eventDisabled
  | shortcuts
  | interruptClear
  | checksumStatus
  | checksumReceived
  | packetPointer
  | frequency
  | power
  | bitRate
  | packetLayout
  | packetLimits
  | base
  | group
  | sendAddress
  | receiveAddresses
  | checksumSize
  | checksumPolynomial
  | checksumStart
  | signalSample
  | state
  | powerSwitch
  deriving DecidableEq, Repr

namespace Register

def offset : Register → Nat
  | taskSend => 0x000
  | taskReceive => 0x004
  | taskDisable => 0x010
  | eventAddress => 0x104
  | eventEnd => 0x10C
  | eventDisabled => 0x110
  | shortcuts => 0x200
  | interruptClear => 0x308
  | checksumStatus => 0x400
  | checksumReceived => 0x40C
  | packetPointer => 0x504
  | frequency => 0x508
  | power => 0x50C
  | bitRate => 0x510
  | packetLayout => 0x514
  | packetLimits => 0x518
  | base => 0x51C
  | group => 0x524
  | sendAddress => 0x52C
  | receiveAddresses => 0x530
  | checksumSize => 0x534
  | checksumPolynomial => 0x538
  | checksumStart => 0x53C
  | signalSample => 0x548
  | state => 0x550
  | powerSwitch => 0xFFC

def all : List Register :=
  [taskSend, taskReceive, taskDisable, eventAddress, eventEnd, eventDisabled, shortcuts,
    interruptClear, checksumStatus, checksumReceived, packetPointer, frequency, power, bitRate,
    packetLayout, packetLimits, base, group, sendAddress, receiveAddresses, checksumSize,
    checksumPolynomial, checksumStart, signalSample, state, powerSwitch]

def isTask (r : Register) : Bool := r.offset < 0x100

end Register

structure Registers where
  value : Register → UInt32 := fun _ => 0
  written : List (Register × UInt32) := []

namespace Registers

def set (rs : Registers) (r : Register) (value : UInt32) : Registers :=
  { rs with value := fun s => if s = r then value else rs.value s }

def write (rs : Registers) (r : Register) (value : UInt32) : Registers :=
  { rs.set r value with written := rs.written ++ [(r, value)] }

def writeAll (rs : Registers) (writes : List (Register × UInt32)) : Registers :=
  writes.foldl (fun rs w => rs.write w.1 w.2) rs

end Registers

/-- The state a radio reports, named as in its data sheet. -/
inductive State where
  | disabled
  | receiveRampUp
  | receiveIdle
  | receive
  | receiveDisable
  | sendRampUp
  | sendIdle
  | send
  | sendDisable
  | reserved (digit : Nat)
  deriving DecidableEq, Repr

namespace State

def ofWord (word : UInt32) : State :=
  match word.toNat % 16 with
  | 0 => disabled
  | 1 => receiveRampUp
  | 2 => receiveIdle
  | 3 => receive
  | 4 => receiveDisable
  | 9 => sendRampUp
  | 10 => sendIdle
  | 11 => send
  | 12 => sendDisable
  | n => reserved n

def name : State → String
  | disabled => "DISABLED"
  | receiveRampUp => "RX_RU"
  | receiveIdle => "RX_IDLE"
  | receive => "RX"
  | receiveDisable => "RX_DISABLE"
  | sendRampUp => "TX_RU"
  | sendIdle => "TX_IDLE"
  | send => "TX"
  | sendDisable => "TX_DISABLE"
  | reserved digit => "_RESERVED_" ++ (Nat.digitChar digit).toString

end State

end StarNet.Radio
