/-!
# Regions and operations of the host

A correlation id names a region or an operation of the host. Zero stands for "no id" wherever ids
are plain numbers, so no id is zero. Workers draw the ids of target regions and of target operations
from two counters that all of them share. Each worker remembers the region and the operation that it
is inside of.
-/

namespace DeviceTrace

structure CorrelationId where
  raw : UInt64
  ne_zero : raw ≠ 0
  deriving DecidableEq

def CorrelationId.ofRaw? (raw : UInt64) : Option CorrelationId :=
  if h : raw = 0 then none else some ⟨raw, h⟩

/-- A counter of ids. It starts at 1 and passes over zero when it wraps around. -/
structure IdCounter where
  upcoming : UInt64 := 1
  deriving DecidableEq, Repr

def IdCounter.draw (c : IdCounter) : CorrelationId × IdCounter :=
  if h : c.upcoming = 0 then (⟨1, by decide⟩, ⟨2⟩) else (⟨c.upcoming, h⟩, ⟨c.upcoming + 1⟩)

structure HostCounters where
  regions : IdCounter := {}
  operations : IdCounter := {}
  deriving DecidableEq, Repr

structure HostWorker where
  region : Option CorrelationId := none
  operation : Option CorrelationId := none
  deriving DecidableEq

namespace HostWorker

/-- Enters a region, in place of the one the worker was in. -/
def enterRegion (w : HostWorker) (counters : HostCounters) :
    CorrelationId × HostWorker × HostCounters :=
  let (id, regions) := counters.regions.draw
  (id, { w with region := some id }, { counters with regions })

/-- Leaves the region and gives its id. -/
def leaveRegion (w : HostWorker) : Option CorrelationId × HostWorker :=
  (w.region, { w with region := none })

/-- Starts an operation, in place of the one the worker was in. -/
def startOperation (w : HostWorker) (counters : HostCounters) :
    CorrelationId × HostWorker × HostCounters :=
  let (id, operations) := counters.operations.draw
  (id, { w with operation := some id }, { counters with operations })

/-- Leaves the operation and gives its id. -/
def finishOperation (w : HostWorker) : Option CorrelationId × HostWorker :=
  (w.operation, { w with operation := none })

end HostWorker
end DeviceTrace
