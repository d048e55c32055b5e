import DeviceTrace.Bytes.LittleEndian
import DeviceTrace.Record.Kind
import DeviceTrace.TraceError

/-!
# Views of one record

A record is a header, which holds a kind tag and the total length, and a payload. A view is the
bytes of one record together with the place where they lie in their stream. Fields are read at
fixed offsets; a field that lies outside the record reads as zero. The numbers that records carry
have names of their own.
-/

namespace DeviceTrace

/-- Nanoseconds on the clock of a device. -/
abbrev Timestamp := UInt64

abbrev DeviceId := UInt32
abbrev ContextId := UInt32
abbrev StreamId := UInt32
abbrev ProcessId := UInt32
abbrev ThreadId := UInt32

/-- Given by the device to one API call and to every record that the call causes. -/
abbrev DeviceCorrelationId := UInt32

/-- Bytes of a record header: kind tag and total length. -/
def headerSize : Nat := 8

/-- Total lengths are multiples of this. -/
def recordAlign : Nat := 8

structure RecordView where
  offset : Nat
  bytes : Bytes
  deriving DecidableEq, Repr

/-- What lies under a cursor. -/
inductive RecordType
  | native (kind : Kind)
  | unknown (tag : UInt32)
  | invalid
  deriving DecidableEq, Repr

def RecordType.describe : RecordType → Datum
  | .native kind => .fields [("Native", .text kind.label)]
  | .unknown tag => .fields [("Unknown", .ofUInt32 tag)]
  | .invalid => .text "Invalid"

namespace RecordView

/-- Total length, header included. -/
def size (v : RecordView) : Nat := v.bytes.length

/-- The offset just past the record. -/
def stop (v : RecordView) : Nat := v.offset + v.size

def uint8At (v : RecordView) (offset : Nat) : UInt8 := .ofNat (v.bytes.wordAt offset 1)

def uint16At (v : RecordView) (offset : Nat) : UInt16 := .ofNat (v.bytes.wordAt offset 2)

def uint32At (v : RecordView) (offset : Nat) : UInt32 := .ofNat (v.bytes.wordAt offset 4)

def int32At (v : RecordView) (offset : Nat) : Int32 := (v.uint32At offset).toInt32

def uint64At (v : RecordView) (offset : Nat) : UInt64 := .ofNat (v.bytes.wordAt offset 8)

def tag (v : RecordView) : UInt32 := v.uint32At 0

/-- The kind of the record, none for a tag that no kind has. -/
def kind? (v : RecordView) : Option Kind := Kind.ofCode? v.tag

def type (v : RecordView) : RecordType :=
  match v.kind? with
  | some kind => .native kind
  | none => .unknown v.tag

def hasPayload (v : RecordView) : Bool := headerSize < v.size

/-- Answers `value` if the record has room for a layout of `needed` bytes. -/
def require {α : Type} (v : RecordView) (needed : Nat) (value : α) : Except TraceError α :=
  if v.size < needed then
    .error (.truncated ((v.kind?.map Kind.label).getD "unknown") v.size needed)
  else .ok value

end RecordView
end DeviceTrace
