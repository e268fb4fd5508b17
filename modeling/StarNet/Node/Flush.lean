import StarNet.Node.Poll

/-!
Polling until nothing is left to send or a data frame arrives. A flush is a series of passes, one
poll each; the blocking form pauses between them and is given an allowance of pauses.
-/
namespace StarNet.Node

variable {W : Type} [Medium W] [Clock W] [SignalSource W]

inductive FlushResult where
  | drained
  | delivered (module : UInt8)
  | stuck
  deriving DecidableEq, Repr

def FlushResult.ofPoll : Option UInt8 → FlushResult
  | none => .drained
  | some m => .delivered m

/-- A pass that finds the node busy polls once; it answers unless the flush has to go on. -/
def continueFlush : NodeM W (Option FlushResult) := do
  if (← get).busy then
    match ← poll with
    | some m => return some (.delivered m)
    | none => return none
  else return some .drained

/-- The first pass polls even if nothing is to be sent, so that a frame can come in. -/
def beginFlush : NodeM W (Option FlushResult) := do
  if (← get).busy then continueFlush
  else return some (.ofPoll (← poll))

/-- Passes with pauses between them. A pause beyond the allowance is not made and leaves the
node stuck. -/
def flushWithin : Nat → NodeM W FlushResult
  | 0 => do
    match ← continueFlush with
    | some result => return result
    | none => return .stuck
  | allowance + 1 => do
    match ← continueFlush with
    | some result => return result
    | none => do
      pause
      flushWithin allowance

def flush (allowance : Nat) : NodeM W FlushResult := do
  if (← get).busy then flushWithin allowance
  else return .ofPoll (← poll)

end StarNet.Node
