import DeviceTrace.Record.Coded
import DeviceTrace.Record.Draft

/-!
# Memory copies

A copy between two devices has a kind and a longer layout of its own, which names both devices.
-/

namespace DeviceTrace

inductive CopyDirection
  | unknown | hostToDevice | deviceToHost | hostToArray | arrayToHost | arrayToArray
  | arrayToDevice | deviceToArray | deviceToDevice | hostToHost | peerToPeer
  deriving DecidableEq, Repr, Inhabited

instance : Coded CopyDirection where
  table := [⟨.unknown, 0, "Unknown"⟩, ⟨.hostToDevice, 1, "HtoD"⟩, ⟨.deviceToHost, 2, "DtoH"⟩,
    ⟨.hostToArray, 3, "HtoA"⟩, ⟨.arrayToHost, 4, "AtoH"⟩, ⟨.arrayToArray, 5, "AtoA"⟩,
    ⟨.arrayToDevice, 6, "AtoD"⟩, ⟨.deviceToArray, 7, "DtoA"⟩, ⟨.deviceToDevice, 8, "DtoD"⟩,
    ⟨.hostToHost, 9, "HtoH"⟩, ⟨.peerToPeer, 10, "PtoP"⟩]

inductive MemoryKind
  | unknown | pageable | pinned | device | array | managed | deviceStatic | managedStatic
  deriving DecidableEq, Repr, Inhabited

instance : Coded MemoryKind where
  table := [⟨.unknown, 0, "Unknown"⟩, ⟨.pageable, 1, "Pageable"⟩, ⟨.pinned, 2, "Pinned"⟩,
    ⟨.device, 3, "Device"⟩, ⟨.array, 4, "Array"⟩, ⟨.managed, 5, "Managed"⟩,
    ⟨.deviceStatic, 6, "DeviceStatic"⟩, ⟨.managedStatic, 7, "ManagedStatic"⟩]

/-- The devices at the two ends of a copy between devices. -/
structure CopyPeers where
  source : DeviceId
  destination : DeviceId
  deriving DecidableEq, Repr

structure Copy where
  direction : CopyDirection
  source : MemoryKind
  destination : MemoryKind
  isAsync : Bool
  size : UInt64
  start : Timestamp
  finish : Timestamp
  device : DeviceId
  context : ContextId
  stream : StreamId
  correlation : DeviceCorrelationId
  peers : Option CopyPeers
  deriving DecidableEq, Repr

namespace Copy

def layoutSize : Nat := 56
def peerLayoutSize : Nat := 64

/-- The bit of the flag byte that marks an asynchronous copy. -/
def asyncFlag : UInt8 := 1

def encode (c : Copy) : Bytes :=
  let (kind, size) : Kind × Nat :=
    if c.peers.isSome then (.memcpy2, peerLayoutSize) else (.memcpy, layoutSize)
  let draft := Draft.new kind.code size
    |>.putUInt8 8 (.ofNat (Coded.code c.direction))
    |>.putUInt8 9 (.ofNat (Coded.code c.source))
    |>.putUInt8 10 (.ofNat (Coded.code c.destination))
    |>.putUInt8 11 (if c.isAsync then asyncFlag else 0)
    |>.putUInt64 16 c.size
    |>.putUInt64 24 c.start
    |>.putUInt64 32 c.finish
    |>.putUInt32 40 c.device
    |>.putUInt32 44 c.context
    |>.putUInt32 48 c.stream
    |>.putUInt32 52 c.correlation
  match c.peers with
  | some peers => (draft.putUInt32 56 peers.source |>.putUInt32 60 peers.destination).bytes
  | none => draft.bytes

def decode (v : RecordView) : Except TraceError Copy :=
  let isPeer : Bool := v.kind? = some .memcpy2
  v.require (if isPeer then peerLayoutSize else layoutSize)
    { direction := Coded.ofCode (v.uint8At 8).toNat
      source := Coded.ofCode (v.uint8At 9).toNat
      destination := Coded.ofCode (v.uint8At 10).toNat
      isAsync := v.uint8At 11 &&& asyncFlag != 0
      size := v.uint64At 16
      start := v.uint64At 24
      finish := v.uint64At 32
      device := v.uint32At 40
      context := v.uint32At 44
      stream := v.uint32At 48
      correlation := v.uint32At 52
      peers := if isPeer then some ⟨v.uint32At 56, v.uint32At 60⟩ else none }

end Copy
end DeviceTrace
