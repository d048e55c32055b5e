import DeviceTrace.Record.Coded

/-!
# Teams, tasks and workers

A hierarchy holds the teams and tasks of a parallel program and the workers that run them. Teams,
tasks and workers are named by handles, which are given out in order and never taken back. Teams
form a tree; a task belongs to a team, has a parent, and may have another task that it was scheduled
from. A worker that enters a parallel region which it runs alone gets a serial region instead of a
team. An operation with an unknown handle changes nothing and says so.

A tool may keep one word with every task and with every parallel region. The runtime adds the frame
addresses that bracket the code of a task, and the return address of a region.
-/

namespace DeviceTrace

structure TeamId where
  index : Nat
  deriving DecidableEq, Repr

structure TaskId where
  index : Nat
  deriving DecidableEq, Repr

structure WorkerId where
  index : Nat
  deriving DecidableEq, Repr

inductive TaskKind
  | initial | implicit | explicit | target
  deriving DecidableEq, Repr, Inhabited

instance : Coded TaskKind where
  table := [⟨.initial, 1, "Initial"⟩, ⟨.implicit, 2, "Implicit"⟩, ⟨.explicit, 4, "Explicit"⟩,
    ⟨.target, 8, "Target"⟩]

/-- The kind of a task and the details of how it was made, one bit each. -/
structure TaskType where
  kind : TaskKind
  flags : UInt32 := 0
  deriving DecidableEq, Repr

def TaskType.bits (t : TaskType) : UInt32 := .ofNat (Coded.code t.kind) ||| t.flags

inductive WorkerState
  | undefined | workSerial | workParallel | idle | overhead
  deriving DecidableEq, Repr

structure FrameAddresses where
  exit : UInt64 := 0
  enter : UInt64 := 0
  exitFlags : UInt32 := 0
  enterFlags : UInt32 := 0
  deriving DecidableEq, Repr

structure TaskPayload where
  data : UInt64 := 0
  frame : FrameAddresses := {}
  deriving DecidableEq, Repr

structure TeamPayload where
  parallelData : UInt64 := 0
  returnAddress : UInt64 := 0
  deriving DecidableEq, Repr

structure Team where
  parent : Option TeamId
  /-- The number that the worker which formed the team has in the parent team. -/
  masterNumber : Nat
  /-- How often the team is nested in itself, zero for one that runs in parallel. -/
  serialized : UInt32
  slots : List (Option WorkerId)
  payload : TeamPayload
  deriving DecidableEq, Repr

structure Task where
  team : TeamId
  type : TaskType
  parent : Option TaskId
  schedulingParent : Option TaskId
  payload : TaskPayload
  deriving DecidableEq, Repr

/-- A parallel region that one worker runs alone, together with its implicit task. -/
structure SerialRegion where
  team : TeamId
  /-- The task that the worker ran when it entered the region. -/
  anchor : TaskId
  teamPayload : TeamPayload
  taskPayload : TaskPayload := {}
  deriving DecidableEq, Repr

structure Worker where
  number : Nat := 0
  current : Option TaskId := none
  state : WorkerState := .undefined
  /-- The serial regions of the worker, the latest first. -/
  regions : List SerialRegion := []
  deriving DecidableEq, Repr

structure Hierarchy where
  teams : List Team := []
  tasks : List Task := []
  workers : List Worker := []
  deriving DecidableEq, Repr

/-- The worker holds the slot of the team. -/
def Team.hasMember (t : Team) (slot : Nat) (worker : WorkerId) : Bool :=
  t.slots[slot]? = some (some worker)

namespace Hierarchy

def team? (h : Hierarchy) (id : TeamId) : Option Team := h.teams[id.index]?
def task? (h : Hierarchy) (id : TaskId) : Option Task := h.tasks[id.index]?
def worker? (h : Hierarchy) (id : WorkerId) : Option Worker := h.workers[id.index]?

def updateTeam (h : Hierarchy) (id : TeamId) (team : Team) : Hierarchy :=
  { h with teams := h.teams.set id.index team }

def updateTask (h : Hierarchy) (id : TaskId) (task : Task) : Hierarchy :=
  { h with tasks := h.tasks.set id.index task }

def updateWorker (h : Hierarchy) (id : WorkerId) (worker : Worker) : Hierarchy :=
  { h with workers := h.workers.set id.index worker }

/-- Adds a team of empty slots, unless its parent is unknown. -/
def addTeam (h : Hierarchy) (parent : Option TeamId) (size masterNumber : Nat)
    (serialized : UInt32) (payload : TeamPayload) : Option TeamId × Hierarchy :=
  if parent.all fun id => (h.team? id).isSome then
    let team := { parent, masterNumber, serialized, slots := List.replicate size none, payload }
    (some ⟨h.teams.length⟩, { h with teams := h.teams ++ [team] })
  else (none, h)

/-- Adds a task, unless its team or one of its parents is unknown. -/
def addTask (h : Hierarchy) (task : Task) : Option TaskId × Hierarchy :=
  if (h.team? task.team).isSome && (task.parent.all fun id => (h.task? id).isSome) &&
      task.schedulingParent.all fun id => (h.task? id).isSome then
    (some ⟨h.tasks.length⟩, { h with tasks := h.tasks ++ [task] })
  else (none, h)

def addWorker (h : Hierarchy) : WorkerId × Hierarchy :=
  (⟨h.workers.length⟩, { h with workers := h.workers ++ [{}] })

/-- Fills or empties a slot of a team. The worker need not be known. -/
def setSlot (h : Hierarchy) (id : TeamId) (slot : Nat) (worker : Option WorkerId) :
    Bool × Hierarchy :=
  match h.team? id with
  | some team =>
    if slot < team.slots.length then
      (true, h.updateTeam id { team with slots := team.slots.set slot worker })
    else (false, h)
  | none => (false, h)

/-- Has a worker run a task under a number, which is its number in the team of the task or, while
that team is formed or torn down, in the parent team. -/
def assign (h : Hierarchy) (worker : WorkerId) (task : TaskId) (number : Nat) :
    Bool × Hierarchy :=
  match h.task? task, h.worker? worker with
  | some _, some w => (true, h.updateWorker worker { w with current := some task, number })
  | _, _ => (false, h)

def stateOf? (h : Hierarchy) (id : WorkerId) : Option WorkerState :=
  (h.worker? id).map Worker.state

end Hierarchy
end DeviceTrace
