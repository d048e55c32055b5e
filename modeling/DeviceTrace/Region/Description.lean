import DeviceTrace.Region.RegionWalk
import DeviceTrace.Region.TaskWalk

/-!
# Tasks and regions described by named fields
-/

namespace DeviceTrace

def TaskPayload.describe (p : TaskPayload) : Datum :=
  .fields [("task_data", .ofUInt64 p.data),
    ("frame", .fields [("exit", .ofUInt64 p.frame.exit), ("enter", .ofUInt64 p.frame.enter),
      ("exit_flags", .ofUInt32 p.frame.exitFlags),
      ("enter_flags", .ofUInt32 p.frame.enterFlags)])]

def TaskPayload.ofDescription? (d : Datum) : Option TaskPayload := do
  let frame := d.field "frame"
  return {
    data := ← d.uint64? "task_data"
    frame := {
      exit := ← frame.uint64? "exit"
      enter := ← frame.uint64? "enter"
      exitFlags := ← frame.uint32? "exit_flags"
      enterFlags := ← frame.uint32? "enter_flags" } }

def TaskLevel.describe (i : TaskLevel) : Datum :=
  .fields [("kind", Coded.toDatum i.type.kind), ("flags", .ofUInt32 i.type.flags),
    ("bits", .ofUInt32 i.type.bits), ("task", i.task.describe),
    ("parallel_data", .ofUInt64 i.parallelData),
    ("thread_num", .ofOption (fun n : Nat => .number n) i.threadNumber)]

def RegionLevel.describe (r : RegionLevel) : Datum :=
  .fields [("parallel_data", .ofUInt64 r.parallelData), ("team_size", .number r.teamSize)]

def SerialHandle.describe (s : SerialHandle) : Datum :=
  .fields [("worker", .number s.worker.index), ("depth", .number s.depth)]

def WorkerState.name : WorkerState → String
  | .undefined => "Undefined"
  | .workSerial => "WorkSerial"
  | .workParallel => "WorkParallel"
  | .idle => "Idle"
  | .overhead => "Overhead"

end DeviceTrace
