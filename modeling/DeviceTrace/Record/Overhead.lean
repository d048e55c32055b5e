import DeviceTrace.Record.Coded
import DeviceTrace.Record.Draft

/-!
# Overhead

Time that the driver or the profiling itself took, and the object it is charged to.
-/

namespace DeviceTrace

inductive OverheadKind
  | unknown | driverCompiler | bufferFlush | instrumentation | resource
  deriving DecidableEq, Repr, Inhabited

instance : Coded OverheadKind where
  table := [⟨.unknown, 0, "Unknown"⟩, ⟨.driverCompiler, 1, "DriverCompiler"⟩,
    ⟨.bufferFlush, 0x10000, "BufferFlush"⟩, ⟨.instrumentation, 0x20000, "Instrumentation"⟩,
    ⟨.resource, 0x30000, "Resource"⟩]

def OverheadKind.label : OverheadKind → String
  | .unknown => "UNKNOWN"
  | .driverCompiler => "COMPILER"
  | .bufferFlush => "BUFFER_FLUSH"
  | .instrumentation => "INSTRUMENTATION"
  | .resource => "RESOURCE"

inductive ObjectKind
  | unknown | process | thread | device | context | stream
  deriving DecidableEq, Repr, Inhabited

instance : Coded ObjectKind where
  table := [⟨.unknown, 0, "Unknown"⟩, ⟨.process, 1, "Process"⟩, ⟨.thread, 2, "Thread"⟩,
    ⟨.device, 3, "Device"⟩, ⟨.context, 4, "Context"⟩, ⟨.stream, 5, "Stream"⟩]

/-- Three numbers that name an object, one for each level of nesting. -/
structure ObjectIds where
  outer : UInt32
  middle : UInt32
  inner : UInt32
  deriving DecidableEq, Repr

structure Overhead where
  overhead : OverheadKind
  object : ObjectKind
  objectIds : ObjectIds
  start : Timestamp
  finish : Timestamp
  deriving DecidableEq, Repr

namespace Overhead

def layoutSize : Nat := 48

/-- The id of the object that the time is charged to. -/
def objectId? (o : Overhead) : Option UInt32 :=
  match o.object with
  | .process | .device => some o.objectIds.outer
  | .thread | .context => some o.objectIds.middle
  | .stream => some o.objectIds.inner
  | .unknown => none

def encode (o : Overhead) : Bytes :=
  Draft.bytes <| Draft.new Kind.overhead.code layoutSize
    |>.putUInt32 8 (.ofNat (Coded.code o.overhead))
    |>.putUInt32 12 (.ofNat (Coded.code o.object))
    |>.putUInt32 16 o.objectIds.outer
    |>.putUInt32 20 o.objectIds.middle
    |>.putUInt32 24 o.objectIds.inner
    |>.putUInt64 32 o.start
    |>.putUInt64 40 o.finish

def decode (v : RecordView) : Except TraceError Overhead :=
  v.require layoutSize
    { overhead := Coded.ofCode (v.uint32At 8).toNat
      object := Coded.ofCode (v.uint32At 12).toNat
      objectIds := ⟨v.uint32At 16, v.uint32At 20, v.uint32At 24⟩
      start := v.uint64At 32
      finish := v.uint64At 40 }

end Overhead
end DeviceTrace
