import DeviceTrace.Record.Coded
import DeviceTrace.Record.Draft

/-!
# Counters of unified memory

Three of the counters describe a transfer of memory; of every other counter only its value is kept.
-/

namespace DeviceTrace

inductive CounterKind
  | unknown | hostToDevice | deviceToHost | cpuPageFaults | gpuPageFaults | thrashing | throttling
  | remoteMap | deviceToDevice
  deriving DecidableEq, Repr, Inhabited

instance : Coded CounterKind where
  table := [⟨.unknown, 0, "Unknown"⟩, ⟨.hostToDevice, 1, "BytesTransferHtoD"⟩,
    ⟨.deviceToHost, 2, "BytesTransferDtoH"⟩, ⟨.cpuPageFaults, 3, "CpuPageFaultCount"⟩,
    ⟨.gpuPageFaults, 4, "GpuPageFault"⟩, ⟨.thrashing, 5, "Thrashing"⟩,
    ⟨.throttling, 6, "Throttling"⟩, ⟨.remoteMap, 7, "RemoteMap"⟩,
    ⟨.deviceToDevice, 8, "BytesTransferDtoD"⟩]

inductive MigrationCause
  | unknown | user | coherence | prefetch | eviction | accessCounters
  deriving DecidableEq, Repr, Inhabited

instance : Coded MigrationCause where
  table := [⟨.unknown, 0, "Unknown"⟩, ⟨.user, 1, "User"⟩, ⟨.coherence, 2, "Coherence"⟩,
    ⟨.prefetch, 3, "Prefetch"⟩, ⟨.eviction, 4, "Eviction"⟩,
    ⟨.accessCounters, 5, "AccessCounters"⟩]

structure MemoryTransfer where
  size : UInt64
  start : Timestamp
  finish : Timestamp
  address : UInt64
  source : DeviceId
  destination : DeviceId
  stream : StreamId
  process : ProcessId
  cause : MigrationCause
  deriving DecidableEq, Repr

inductive MemoryCounter
  | hostToDevice (transfer : MemoryTransfer)
  | deviceToHost (transfer : MemoryTransfer)
  | deviceToDevice (transfer : MemoryTransfer)
  | count (kind : CounterKind) (value : UInt64)
  deriving DecidableEq, Repr

def MemoryTransfer.ofView (v : RecordView) : MemoryTransfer where
  size := v.uint64At 16
  start := v.uint64At 24
  finish := v.uint64At 32
  address := v.uint64At 40
  source := v.uint32At 48
  destination := v.uint32At 52
  stream := v.uint32At 56
  process := v.uint32At 60
  cause := Coded.ofCode (v.uint32At 12).toNat

namespace MemoryCounter

def layoutSize : Nat := 64

def transfer? : MemoryCounter → Option MemoryTransfer
  | .hostToDevice t | .deviceToHost t | .deviceToDevice t => some t
  | .count .. => none

def kind : MemoryCounter → CounterKind
  | .hostToDevice _ => .hostToDevice
  | .deviceToHost _ => .deviceToHost
  | .deviceToDevice _ => .deviceToDevice
  | .count kind _ => kind

def encode (c : MemoryCounter) : Bytes :=
  let draft := Draft.new Kind.unifiedMemoryCounter.code layoutSize
    |>.putUInt32 8 (.ofNat (Coded.code c.kind))
  match c with
  | .hostToDevice t | .deviceToHost t | .deviceToDevice t =>
    Draft.bytes <| draft
      |>.putUInt32 12 (.ofNat (Coded.code t.cause))
      |>.putUInt64 16 t.size
      |>.putUInt64 24 t.start
      |>.putUInt64 32 t.finish
      |>.putUInt64 40 t.address
      |>.putUInt32 48 t.source
      |>.putUInt32 52 t.destination
      |>.putUInt32 56 t.stream
      |>.putUInt32 60 t.process
  | .count _ value => (draft.putUInt64 16 value).bytes

def decode (v : RecordView) : Except TraceError MemoryCounter :=
  v.require layoutSize <|
    match (Coded.ofCode (v.uint32At 8).toNat : CounterKind) with
    | .hostToDevice => .hostToDevice (.ofView v)
    | .deviceToHost => .deviceToHost (.ofView v)
    | .deviceToDevice => .deviceToDevice (.ofView v)
    | kind => .count kind (v.uint64At 16)

end MemoryCounter
end DeviceTrace
