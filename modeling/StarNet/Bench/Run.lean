import StarNet.Node.Command
import StarNet.Bench.World

/-!
Longer runs of nodes on the bench: many polls in a row, a flush in turns, and two nodes joined
by wires.
-/
namespace StarNet.Bench

abbrev BenchNode := Node World

namespace BenchNode

def changeWorld (change : World → World) : NodeM World Unit :=
  modify fun n => { n with world := change n.world }

def pollTimes (ticks : Ticks) : Nat → NodeM World (List (Option UInt8))
  | 0 => return []
  | polls + 1 => do
    let delivered ← Node.poll
    changeWorld (·.advance ticks)
    return delivered :: (← pollTimes ticks polls)

def numbered (polls : List (Option UInt8)) : List (Nat × UInt8) :=
  polls.zipIdx.filterMap fun (delivered, i) => delivered.map (i, ·)

def continueTurns : Nat → NodeM World Node.FlushResult
  | 0 => return .stuck
  | turns + 1 => do
    match ← Node.continueFlush with
    | some result => return result
    | none => do
      Node.pause
      continueTurns turns

def flushTurns : Nat → NodeM World Node.FlushResult
  | 0 => return .stuck
  | turns + 1 => do
    match ← Node.beginFlush with
    | some result => return result
    | none => do
      Node.pause
      continueTurns turns

def put (data : List UInt8) (ack : Bool) : NodeM World (Option (Except SendError Unit)) := do
  match ← Node.allocate (·.write 0 data) with
  | none => return none
  | some _ => return some (← Node.send data.length.toUInt8 ack)

end BenchNode

def record {α : Type} (answer : Except StoreError Unit) :
    Persist α → Except Fault (List (UInt8 × List UInt8) × α)
  | .done a => .ok ([], a)
  | .fail fault => .error fault
  | .write id data next => do
    let (writes, a) ← record answer (next answer)
    return ((id, data) :: writes, a)

structure Damage where
  lost : Bool := false
  /-- A byte that is changed, and the bits that change in it. -/
  flip : Option (Nat × UInt8) := none
  noise : List UInt8 := []

def Damage.apply (d : Damage) (bytes : List UInt8) : List UInt8 :=
  let bytes := if d.lost then [] else bytes
  let bytes := match d.flip with
    | some (i, bits) => bytes.modify i (· ^^^ bits)
    | none => bytes
  d.noise ++ bytes

structure Link where
  a : BenchNode
  b : BenchNode

namespace Link

def takeBytes (n : BenchNode) : List UInt8 × BenchNode :=
  match n.world.carrier with
  | .serial t =>
    (t.line.onWire.toList,
      { n with world := n.world.wire fun t => { t with line := { t.line with onWire := #[] } } })
  | _ => ([], n)

def putBytes (n : BenchNode) (bytes : List UInt8) : BenchNode :=
  { n with world := n.world.wire fun t => { t with incoming := t.incoming ++ bytes.map .byte } }

/-- Carries what waits on both wires to the other ends. Answers how many bytes came to `b` and
to `a`. -/
def carry (l : Link) (ab ba : Damage) : (Nat × Nat) × Link :=
  let (fromA, a) := takeBytes l.a
  let toB := ab.apply fromA
  let b := putBytes l.b toB
  let (fromB, b) := takeBytes b
  let toA := ba.apply fromB
  ((toB.length, toA.length), ⟨putBytes a toA, b⟩)

structure Glance where
  delivered : Option UInt8
  node : BenchNode

def pollOne (n : BenchNode) : Except Fault Glance := do
  let n := { n with world := n.world.clearLog }
  let (delivered, node) ← Node.poll.run n
  return ⟨delivered, node⟩

def rounds (ticks : Ticks) : Nat → Link → Except Fault (List (Glance × Glance) × Link)
  | 0, l => .ok ([], l)
  | n + 1, l => do
    let a ← pollOne l.a
    let b ← pollOne l.b
    let (_, next) := Link.carry ⟨a.node, b.node⟩ {} {}
    let (_, nextA) ← (BenchNode.changeWorld (·.advance ticks)).run next.a
    let (_, nextB) ← (BenchNode.changeWorld (·.advance ticks)).run next.b
    let (glances, l) ← rounds ticks n ⟨nextA, nextB⟩
    return ((a, b) :: glances, l)

end Link

end StarNet.Bench
