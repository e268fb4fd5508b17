import StarNet.Config.Storage
import StarNet.Radio.Register

/-!
What a step on the bench has changed.
-/
namespace StarNet.Bench

def changedBytes (before after : Memory) : List (Nat × UInt8) :=
  ((before.bytes.zip after.bytes).zipIdx).filterMap fun ((b, a), i) =>
    if a = b then none else some (i, a)

def startedTasks (registers : Radio.Registers) : List Radio.Register :=
  Radio.Register.all.filter fun r =>
    r.isTask && registers.written.any fun w => w.1 == r && w.2 != 0

/-- The registers that hold another value than before, tasks and the packet pointer left out. -/
def changedRegisters (before after : Radio.Registers) : List (Radio.Register × UInt32) :=
  Radio.Register.all.filterMap fun r =>
    if r.isTask || r == .packetPointer || before.value r == after.value r then none
    else some (r, after.value r)

end StarNet.Bench
