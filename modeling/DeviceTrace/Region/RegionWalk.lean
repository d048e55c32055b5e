import DeviceTrace.Region.Serial

/-!
# Looking outward from the current region

The parallel regions around a worker are, from the inside, the serial regions that it entered in the
team of its current task, that team, the serial regions entered in the parent team, and so on.
-/

namespace DeviceTrace

structure RegionPosition where
  team : Team
  /-- The serial regions entered in the team that the walk has still to pass. -/
  pending : List SerialRegion
  deriving DecidableEq, Repr

structure RegionLevel where
  parallelData : UInt64
  teamSize : Nat
  deriving DecidableEq, Repr

/-- A serial region has one worker. -/
def RegionPosition.level (p : RegionPosition) : RegionLevel :=
  match p.pending with
  | region :: _ => ⟨region.teamPayload.parallelData, 1⟩
  | [] => ⟨p.team.payload.parallelData, p.team.slots.length⟩

namespace Hierarchy

def regionOfTeam? (h : Hierarchy) (w : Worker) (id : TeamId) : Option RegionPosition :=
  (h.team? id).map fun team => ⟨team, w.enteredIn id⟩

def innermostRegion? (h : Hierarchy) (w : Worker) : Option RegionPosition := do
  let task ← w.current.bind h.task?
  h.regionOfTeam? w task.team

def regionOutward? (h : Hierarchy) (w : Worker) (p : RegionPosition) : Option RegionPosition :=
  match p.pending with
  | _ :: rest => some { p with pending := rest }
  | [] => p.team.parent.bind (h.regionOfTeam? w)

def regionWalk? (h : Hierarchy) (w : Worker) : Nat → RegionPosition → Option RegionPosition
  | 0, p => some p
  | depth + 1, p => (h.regionOutward? w p).bind (h.regionWalk? w depth)

/-- What is told of the parallel region a number of levels outward. -/
def regionLevel? (h : Hierarchy) (id : WorkerId) (depth : Nat) : Option RegionLevel := do
  let w ← h.worker? id
  let p ← (h.innermostRegion? w).bind (h.regionWalk? w depth)
  return p.level

end Hierarchy
end DeviceTrace
