import DeviceTrace.Record.Draft

/-!
# API calls

Calls of the driver and of the runtime share one layout and differ in the kind of their record.
-/

namespace DeviceTrace

structure ApiCall where
  /-- The function called, as numbered by its callback domain. -/
  callback : UInt32
  returnValue : UInt32
  start : Timestamp
  finish : Timestamp
  process : ProcessId
  thread : ThreadId
  correlation : DeviceCorrelationId
  deriving DecidableEq, Repr

namespace ApiCall

def layoutSize : Nat := 48

def encode (kind : Kind) (c : ApiCall) : Bytes :=
  Draft.bytes <| Draft.new kind.code layoutSize
    |>.putUInt32 8 c.callback
    |>.putUInt32 12 c.returnValue
    |>.putUInt64 16 c.start
    |>.putUInt64 24 c.finish
    |>.putUInt32 32 c.process
    |>.putUInt32 36 c.thread
    |>.putUInt32 40 c.correlation

def decode (v : RecordView) : Except TraceError ApiCall :=
  v.require layoutSize
    { callback := v.uint32At 8
      returnValue := v.uint32At 12
      start := v.uint64At 16
      finish := v.uint64At 24
      process := v.uint32At 32
      thread := v.uint32At 36
      correlation := v.uint32At 40 }

end ApiCall
end DeviceTrace
