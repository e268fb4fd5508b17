import StarNet.Node.Flush
import StarNet.Node.Module

/-!
The commands a node takes, and runs of them.
-/
namespace StarNet.Node

inductive Command where
  | allocate (change : Buffer → Buffer)
  | send (length : UInt8) (ack : Bool)
  | broadcast (length : UInt8)
  | sendRaw (length : UInt8) (header : Header)
  | poll
  | flush (allowance : Nat)
  | shipTrace (force : Bool)
  | initRadio (mode : RadioMode)

inductive Answer where
  | done
  | allocated (buffer : Option Buffer)
  | queued (result : Except SendError Unit)
  | polled (delivered : Option UInt8)
  | flushed (result : FlushResult)

variable {W : Type} [Medium W] [Clock W] [SignalSource W]

def perform : Command → NodeM W Answer
  | .allocate change => do return .allocated (← allocate change)
  | .send length ack => do return .queued (← send length ack)
  | .broadcast length => do return .queued (← broadcast length)
  | .sendRaw length header => do return .queued (← sendRaw length header)
  | .poll => do return .polled (← poll)
  | .flush allowance => do return .flushed (← flush allowance)
  | .shipTrace force => do
    shipTrace force
    return .done
  | .initRadio mode => do
    initRadio mode
    return .done

def performAll : List Command → NodeM W (List Answer)
  | [] => return []
  | c :: cs => do
    let answer ← perform c
    return answer :: (← performAll cs)

end StarNet.Node
