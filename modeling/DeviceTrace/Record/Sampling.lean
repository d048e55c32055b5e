import DeviceTrace.Record.Coded
import DeviceTrace.Record.Draft

/-!
# Sampling of kernels

Samples of program counters, the totals of one launch, and the tables that samples point into.
-/

namespace DeviceTrace

inductive StallReason
  | invalid | none | instructionFetch | executionDependency | memoryDependency | texture | sync
  | constantMemoryDependency | pipeBusy | memoryThrottle | notSelected | other
  deriving DecidableEq, Repr, Inhabited

instance : Coded StallReason where
  table := [⟨.invalid, 0, "Invalid"⟩, ⟨.none, 1, "None"⟩,
    ⟨.instructionFetch, 2, "InstructionFetch"⟩, ⟨.executionDependency, 3, "ExecutionDependency"⟩,
    ⟨.memoryDependency, 4, "MemoryDependency"⟩, ⟨.texture, 5, "Texture"⟩, ⟨.sync, 6, "Sync"⟩,
    ⟨.constantMemoryDependency, 7, "ConstantMemoryDependency"⟩, ⟨.pipeBusy, 8, "PipeBusy"⟩,
    ⟨.memoryThrottle, 9, "MemoryThrottle"⟩, ⟨.notSelected, 10, "NotSelected"⟩,
    ⟨.other, 11, "Other"⟩]

structure SourceLocator where
  id : UInt32
  line : UInt32
  deriving DecidableEq, Repr

structure KernelFunction where
  id : UInt32
  context : ContextId
  image : UInt32
  index : UInt32
  deriving DecidableEq, Repr

structure CounterSample where
  flags : UInt32
  locator : UInt32
  correlation : DeviceCorrelationId
  function : UInt32
  offset : UInt32
  samples : UInt32
  stall : StallReason
  deriving DecidableEq, Repr

structure SampleTotals where
  correlation : DeviceCorrelationId
  total : UInt64
  dropped : UInt64
  deriving DecidableEq, Repr

namespace SourceLocator

def layoutSize : Nat := 16

def encode (l : SourceLocator) : Bytes :=
  Draft.bytes <| Draft.new Kind.sourceLocator.code layoutSize
    |>.putUInt32 8 l.id
    |>.putUInt32 12 l.line

def decode (v : RecordView) : Except TraceError SourceLocator :=
  v.require layoutSize { id := v.uint32At 8, line := v.uint32At 12 }

end SourceLocator

namespace KernelFunction

def layoutSize : Nat := 24

def encode (f : KernelFunction) : Bytes :=
  Draft.bytes <| Draft.new Kind.function.code layoutSize
    |>.putUInt32 8 f.id
    |>.putUInt32 12 f.context
    |>.putUInt32 16 f.image
    |>.putUInt32 20 f.index

def decode (v : RecordView) : Except TraceError KernelFunction :=
  v.require layoutSize
    { id := v.uint32At 8
      context := v.uint32At 12
      image := v.uint32At 16
      index := v.uint32At 20 }

end KernelFunction

namespace CounterSample

def layoutSize : Nat := 40

def encode (s : CounterSample) : Bytes :=
  Draft.bytes <| Draft.new Kind.pcSampling.code layoutSize
    |>.putUInt32 8 s.flags
    |>.putUInt32 12 s.locator
    |>.putUInt32 16 s.correlation
    |>.putUInt32 20 s.function
    |>.putUInt32 24 s.offset
    |>.putUInt32 28 s.samples
    |>.putUInt32 32 (.ofNat (Coded.code s.stall))

def decode (v : RecordView) : Except TraceError CounterSample :=
  v.require layoutSize
    { flags := v.uint32At 8
      locator := v.uint32At 12
      correlation := v.uint32At 16
      function := v.uint32At 20
      offset := v.uint32At 24
      samples := v.uint32At 28
      stall := Coded.ofCode (v.uint32At 32).toNat }

end CounterSample

namespace SampleTotals

def layoutSize : Nat := 32

def encode (t : SampleTotals) : Bytes :=
  Draft.bytes <| Draft.new Kind.pcSamplingRecordInfo.code layoutSize
    |>.putUInt32 8 t.correlation
    |>.putUInt64 16 t.total
    |>.putUInt64 24 t.dropped

def decode (v : RecordView) : Except TraceError SampleTotals :=
  v.require layoutSize
    { correlation := v.uint32At 8
      total := v.uint64At 16
      dropped := v.uint64At 24 }

end SampleTotals
end DeviceTrace
