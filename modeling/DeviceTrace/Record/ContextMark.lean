import DeviceTrace.Record.Draft

/-!
# Context marks

A context mark says which context and device the records after it belong to. The two ids that route
records are read from any mark, also from one too short for its layout, where they may be zero.
-/

namespace DeviceTrace

structure ContextMark where
  context : ContextId
  device : DeviceId
  computeApi : UInt16
  nullStream : UInt16
  deriving DecidableEq, Repr

namespace ContextMark

def layoutSize : Nat := 24

def contextOf (v : RecordView) : ContextId := v.uint32At 8

def deviceOf (v : RecordView) : DeviceId := v.uint32At 12

def encode (m : ContextMark) : Bytes :=
  Draft.bytes <| Draft.new Kind.context.code layoutSize
    |>.putUInt32 8 m.context
    |>.putUInt32 12 m.device
    |>.putUInt16 16 m.computeApi
    |>.putUInt16 18 m.nullStream

def decode (v : RecordView) : Except TraceError ContextMark :=
  v.require layoutSize
    { context := contextOf v
      device := deviceOf v
      computeApi := v.uint16At 16
      nullStream := v.uint16At 18 }

end ContextMark
end DeviceTrace
