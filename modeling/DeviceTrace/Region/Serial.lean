import DeviceTrace.Region.Basic

/-!
# Serial regions

A worker enters and leaves serial regions in the manner of a stack. The latest region is what the
worker is in as long as it still runs the task that it entered the region from; then the data of the
current task and of the innermost parallel region are those of the serial region.
-/

namespace DeviceTrace

/-- A serial region of a worker, by how many regions were entered before it. -/
structure SerialHandle where
  worker : WorkerId
  depth : Nat
  deriving DecidableEq, Repr

namespace Worker

/-- The serial regions entered from a task, the latest first. -/
def anchoredOn (w : Worker) (task : TaskId) : List SerialRegion :=
  w.regions.filter (·.anchor = task)

/-- The serial regions entered in a team, the latest first. -/
def enteredIn (w : Worker) (team : TeamId) : List SerialRegion :=
  w.regions.filter (·.team = team)

/-- The latest region, if the worker still runs the task that it was entered from, and the regions
before it. -/
def innermost? (w : Worker) : Option (SerialRegion × List SerialRegion) :=
  match w.regions with
  | region :: rest => if w.current = some region.anchor then some (region, rest) else none
  | [] => none

/-- The place in `regions` of the region with a number of regions before it. -/
def place? (w : Worker) (depth : Nat) : Option Nat :=
  if depth < w.regions.length then some (w.regions.length - 1 - depth) else none

end Worker

namespace Hierarchy

/-- Enters a serial region with an empty implicit task. The worker has to run a task. -/
def enterSerial (h : Hierarchy) (id : WorkerId) (parallelData returnAddress : UInt64) :
    Option SerialHandle × Hierarchy :=
  match h.worker? id with
  | none => (none, h)
  | some w =>
    match w.current.bind fun anchor => (h.task? anchor).map (anchor, ·) with
    | none => (none, h)
    | some (anchor, task) =>
      let region := { team := task.team, anchor, teamPayload := { parallelData, returnAddress } }
      (some ⟨id, w.regions.length⟩, h.updateWorker id { w with regions := region :: w.regions })

/-- Leaves the latest serial region, whatever task the worker runs, and gives its parallel data. -/
def leaveSerial (h : Hierarchy) (id : WorkerId) : Option UInt64 × Hierarchy :=
  match h.worker? id with
  | none => (none, h)
  | some w =>
    match w.regions with
    | [] => (none, h)
    | region :: rest =>
      (some region.teamPayload.parallelData, h.updateWorker id { w with regions := rest })

def serialTask? (h : Hierarchy) (handle : SerialHandle) : Option TaskPayload := do
  let w ← h.worker? handle.worker
  let place ← w.place? handle.depth
  return (← w.regions[place]?).taskPayload

def setSerialTask (h : Hierarchy) (handle : SerialHandle) (payload : TaskPayload) :
    Bool × Hierarchy :=
  match h.worker? handle.worker with
  | none => (false, h)
  | some w =>
    match w.place? handle.depth with
    | none => (false, h)
    | some place =>
      let regions := w.regions.modify place ({ · with taskPayload := payload })
      (true, h.updateWorker handle.worker { w with regions })

/-- The payload of the task that a worker is in. -/
def currentPayload? (h : Hierarchy) (id : WorkerId) : Option TaskPayload := do
  let w ← h.worker? id
  let current ← w.current
  match w.innermost? with
  | some (region, _) => return region.taskPayload
  | none => return (← h.task? current).payload

def setCurrentPayload (h : Hierarchy) (id : WorkerId) (payload : TaskPayload) : Bool × Hierarchy :=
  match h.worker? id with
  | none => (false, h)
  | some w =>
    match w.innermost? with
    | some (region, rest) =>
      let regions := { region with taskPayload := payload } :: rest
      (true, h.updateWorker id { w with regions })
    | none =>
      match w.current.bind fun current => (h.task? current).map (current, ·) with
      | some (current, task) => (true, h.updateTask current { task with payload })
      | none => (false, h)

/-- Sets the data of the innermost parallel region that a worker is in. -/
def setRegionData (h : Hierarchy) (id : WorkerId) (parallelData : UInt64) : Bool × Hierarchy :=
  match h.worker? id with
  | none => (false, h)
  | some w =>
    match w.innermost? with
    | some (region, rest) =>
      let teamPayload := { region.teamPayload with parallelData }
      (true, h.updateWorker id { w with regions := { region with teamPayload } :: rest })
    | none =>
      match w.current.bind h.task? with
      | none => (false, h)
      | some task =>
        match h.team? task.team with
        | none => (false, h)
        | some team =>
          let payload := { team.payload with parallelData }
          (true, h.updateTeam task.team { team with payload })

/-- Records where the runtime was entered from the current task. The worker now works in parallel;
the answer is the state that it was in before. -/
def noteEntry (h : Hierarchy) (id : WorkerId) (address : UInt64) (flags : UInt32) :
    Option WorkerState × Hierarchy :=
  match h.currentPayload? id with
  | none => (none, h)
  | some payload =>
    let frame := { payload.frame with enter := address, enterFlags := flags }
    let (_, h) := h.setCurrentPayload id { payload with frame }
    match h.worker? id with
    | none => (none, h)
    | some w => (some w.state, h.updateWorker id { w with state := .workParallel })

end Hierarchy
end DeviceTrace
