import DeviceTrace.Record.ContextMark
import DeviceTrace.Stream.Scan

/-!
# Cursors

A cursor is the offset of a record in a buffer of which only the first bytes are valid. Cursors may
point anywhere; nothing outside the valid region is ever looked at.
-/

namespace DeviceTrace

structure Cursor where
  offset : Nat
  deriving DecidableEq, Repr

/-- The first `valid` bytes of a buffer, or all of it if it is shorter. -/
def validRegion (buffer : Bytes) (valid : Nat) : Bytes := buffer.take valid

def recordAt? (buffer : Bytes) (valid : Nat) (cursor : Cursor) : Option RecordView :=
  RecordView.parse? (validRegion buffer valid) cursor.offset

def recordTypeAt (buffer : Bytes) (valid : Nat) (cursor : Cursor) : RecordType :=
  match recordAt? buffer valid cursor with
  | some view => view.type
  | none => .invalid

/-- The cursor of the record after `current`, or of the first record. There is none if `current`
itself is not at a record. -/
def advance? (buffer : Bytes) (valid : Nat) (current : Option Cursor) : Option Cursor := do
  let next ← match current with
    | none => some ⟨0⟩
    | some cursor => (recordAt? buffer valid cursor).map fun view => ⟨view.stop⟩
  let view ← recordAt? buffer valid next
  return ⟨view.offset⟩

/-- Whether there is a record after `current`. -/
def hasNext (buffer : Bytes) (valid : Nat) (current : Option Cursor) : Bool :=
  (advance? buffer valid current).isSome

/-- Reads records at cursors and tells of each the context that the last context mark read before
it, or it itself, has named. -/
structure ContextReader where
  context : UInt64 := 0
  deriving DecidableEq, Repr

def ContextReader.observe (r : ContextReader) (view : RecordView) : ContextReader :=
  if view.kind? = some .context then ⟨(ContextMark.contextOf view).toUInt64⟩ else r

def ContextReader.read (r : ContextReader) (buffer : Bytes) (valid : Nat) (cursor : Cursor) :
    Option (RecordView × UInt64) × ContextReader :=
  match recordAt? buffer valid cursor with
  | some view => (some (view, (r.observe view).context), r.observe view)
  | none => (none, r)

end DeviceTrace
