import DeviceTrace.Region.Serial

/-!
# Looking outward from the current task

The levels around a worker are, from the inside, the serial regions that it entered from its current
task, that task, the serial regions entered from the next task, and so on. The next task is the
parent or, where scheduling is followed, the task that scheduled this one, if there is one.
-/

namespace DeviceTrace

/-- A level that the walk has reached. -/
structure TaskPosition where
  id : TaskId
  task : Task
  /-- The serial regions entered from the task that the walk has still to pass. -/
  pending : List SerialRegion
  /-- The team that the walk left when it last went from a task to a parent in another team. -/
  left : Option TeamId := none
  deriving DecidableEq, Repr

/-- A task without a parent is an initial task, whatever it was added as. -/
def TaskPosition.type (p : TaskPosition) : TaskType :=
  if !p.pending.isEmpty then { kind := .implicit }
  else if p.task.parent.isNone then { kind := .initial }
  else p.task.type

/-- What is told of a task level. -/
structure TaskLevel where
  type : TaskType
  task : TaskPayload
  parallelData : UInt64
  /-- The place of the worker in the team at that level, none if it has none. -/
  threadNumber : Option Nat
  deriving DecidableEq, Repr

namespace Hierarchy

def innermostTask? (h : Hierarchy) (w : Worker) : Option TaskPosition := do
  let id ← w.current
  let task ← h.task? id
  return { id, task, pending := w.anchoredOn id }

/-- One level outward. Only a step to a parent takes note of a change of team. -/
def outward? (h : Hierarchy) (w : Worker) (scheduling : Bool) (p : TaskPosition) :
    Option TaskPosition :=
  match p.pending with
  | _ :: rest => some { p with pending := rest }
  | [] =>
    match if scheduling then p.task.schedulingParent else none with
    | some id => do
      let task ← h.task? id
      return { p with id, task, pending := w.anchoredOn id }
    | none => do
      let id ← p.task.parent
      let task ← h.task? id
      let left := if task.team = p.task.team then p.left else some p.task.team
      return { id, task, pending := w.anchoredOn id, left }

def taskWalk? (h : Hierarchy) (w : Worker) (scheduling : Bool) :
    Nat → TaskPosition → Option TaskPosition
  | 0, p => some p
  | depth + 1, p => (h.outward? w scheduling p).bind (h.taskWalk? w scheduling depth)

def taskAt? (h : Hierarchy) (w : Worker) (scheduling : Bool) (depth : Nat) : Option TaskPosition :=
  (h.innermostTask? w).bind (h.taskWalk? w scheduling depth)

def payloadsAt? (h : Hierarchy) (p : TaskPosition) : Option (TaskPayload × TeamPayload) :=
  match p.pending with
  | region :: _ => some (region.taskPayload, region.teamPayload)
  | [] => (h.team? p.task.team).map fun team => (p.task.payload, team.payload)

/-- The number of a worker in a team that the walk reached without leaving another one. While the
team is formed or torn down the worker may go by its number in the parent team; then it is the
master of this one. -/
def ownNumber? (h : Hierarchy) (id : WorkerId) (number : Nat) (team : Team) : Option Nat :=
  if team.hasMember number id then some number
  else if (team.parent.bind h.team?).any (·.hasMember number id) then some 0
  else none

/-- The number of a worker at a level. A serial region has the worker alone, a serialized team has
it as its master, and in a team around another one it has the number of that team's master. Of a
level behind a team that is not known there is no telling. -/
def threadNumberAt? (h : Hierarchy) (id : WorkerId) (w : Worker) (p : TaskPosition) (team : Team) :
    Option (Option Nat) :=
  if !p.pending.isEmpty then some (some 0)
  else if team.serialized > 0 then some (if team.hasMember 0 id then some 0 else none)
  else match p.left with
    | none => some (h.ownNumber? id w.number team)
    | some left => do
      let inner ← h.team? left
      return if team.hasMember inner.masterNumber id then some inner.masterNumber else none

/-- What is told of the task a number of levels outward, following scheduling. -/
def taskLevel? (h : Hierarchy) (id : WorkerId) (depth : Nat) : Option TaskLevel := do
  let w ← h.worker? id
  let p ← h.taskAt? w true depth
  let (task, region) ← h.payloadsAt? p
  let team ← h.team? p.task.team
  let threadNumber ← h.threadNumberAt? id w p team
  return { type := p.type, task, parallelData := region.parallelData, threadNumber }

def taskPayloadAt? (h : Hierarchy) (scheduling : Bool) (id : WorkerId) (depth : Nat) :
    Option TaskPayload := do
  let w ← h.worker? id
  let p ← h.taskAt? w scheduling depth
  return (← h.payloadsAt? p).1

/-- The payload of the task a number of levels outward, by parents alone. -/
def lexicalTask? (h : Hierarchy) (id : WorkerId) (depth : Nat) : Option TaskPayload :=
  h.taskPayloadAt? false id depth

/-- The payload of the task a number of levels outward, following scheduling. -/
def schedulingTask? (h : Hierarchy) (id : WorkerId) (depth : Nat) : Option TaskPayload :=
  h.taskPayloadAt? true id depth

end Hierarchy
end DeviceTrace
