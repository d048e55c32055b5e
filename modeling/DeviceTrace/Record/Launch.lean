import DeviceTrace.Record.Draft

/-!
# Kernel launches
-/

namespace DeviceTrace

/-- An extent of a grid or a block. -/
structure Extent where
  x : Int32
  y : Int32
  z : Int32
  deriving DecidableEq, Repr

structure Launch where
  /-- Whether other kernels may have run at the same time. -/
  concurrent : Bool
  start : Timestamp
  finish : Timestamp
  completed : Timestamp
  device : DeviceId
  context : ContextId
  stream : StreamId
  correlation : DeviceCorrelationId
  grid : Extent
  block : Extent
  deriving DecidableEq, Repr

namespace Launch

def layoutSize : Nat := 72

def encode (l : Launch) : Bytes :=
  let kind : Kind := if l.concurrent then .concurrentKernel else .kernel
  Draft.bytes <| Draft.new kind.code layoutSize
    |>.putUInt64 8 l.start
    |>.putUInt64 16 l.finish
    |>.putUInt64 24 l.completed
    |>.putUInt32 32 l.device
    |>.putUInt32 36 l.context
    |>.putUInt32 40 l.stream
    |>.putUInt32 44 l.correlation
    |>.putInt32 48 l.grid.x
    |>.putInt32 52 l.grid.y
    |>.putInt32 56 l.grid.z
    |>.putInt32 60 l.block.x
    |>.putInt32 64 l.block.y
    |>.putInt32 68 l.block.z

def decode (v : RecordView) : Except TraceError Launch :=
  v.require layoutSize
    { concurrent := v.kind? = some .concurrentKernel
      start := v.uint64At 8
      finish := v.uint64At 16
      completed := v.uint64At 24
      device := v.uint32At 32
      context := v.uint32At 36
      stream := v.uint32At 40
      correlation := v.uint32At 44
      grid := ⟨v.int32At 48, v.int32At 52, v.int32At 56⟩
      block := ⟨v.int32At 60, v.int32At 64, v.int32At 68⟩ }

end Launch
end DeviceTrace
