import DeviceTrace.Record.ContextMark
import DeviceTrace.Stream.Records

/-!
# Spans of one context

Context marks cut a stream into spans. All records of a span belong to the context and the device
that the mark at its start names; the records before the first mark belong to device 0 and context
0. Empty spans are left out, and so is what follows the place where the walk over the stream ends.
-/

namespace DeviceTrace

structure Span where
  device : DeviceId
  context : ContextId
  start : Nat
  stop : Nat
  deriving DecidableEq, Repr

namespace Span

/-- The empty span that a context mark opens. -/
def opened (mark : RecordView) : Span where
  device := ContextMark.deviceOf mark
  context := ContextMark.contextOf mark
  start := mark.offset
  stop := mark.offset

/-- The span that ends at `stop`, as a list that is empty if the span is. -/
def closedAt (span : Span) (stop : Nat) : List Span :=
  if span.start < stop then [{ span with stop }] else []

def size (span : Span) : Nat := span.stop - span.start

end Span

/-- The spans of some records that end at `stop`, where `current` is open at first. -/
def spansFrom (stop : Nat) (current : Span) : List RecordView → List Span
  | [] => current.closedAt stop
  | view :: views =>
    if view.kind? = some .context then
      current.closedAt view.offset ++ spansFrom stop (.opened view) views
    else spansFrom stop current views

/-- The spans of a stream, and why the walk over it stops early. -/
def contextSpans (bytes : Bytes) : List Span × Option TraceError :=
  let (views, last) := (Records.ofBytes bytes).run
  (spansFrom last.position ⟨0, 0, 0, 0⟩ views, last.error)

def spans (bytes : Bytes) : List Span :=
  spansFrom (recordsEnd bytes).position ⟨0, 0, 0, 0⟩ (records bytes)

theorem contextSpans_eq (bytes : Bytes) : contextSpans bytes = (spans bytes, walkError bytes) := rfl

/-- The records of one device, as a completion callback receives them. -/
structure RecordBatch where
  /-- The id by which the host knows the device. -/
  device : Int32
  context : ContextId
  bytes : Bytes
  deriving DecidableEq, Repr

namespace RecordBatch

def size (b : RecordBatch) : Nat := b.bytes.length

def records (b : RecordBatch) : List RecordView := DeviceTrace.records b.bytes

end RecordBatch
end DeviceTrace
