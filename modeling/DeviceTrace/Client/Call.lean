import DeviceTrace.Buffer
import DeviceTrace.Client.EnabledKinds
import DeviceTrace.Host.Worker
import DeviceTrace.Record.View

/-!
# Calls of the device client

Everything that a session asks of the device client is one of these calls. Each has a name, under
which its failures are reported, and a type of reply.
-/

namespace DeviceTrace

/-- A buffer that the producer hands back. -/
structure Completion where
  context : ContextHandle
  stream : StreamId
  buffer : TraceBuffer
  deriving DecidableEq, Repr

inductive ClientCall
  | enableKind (context : ContextHandle) (kind : Kind)
  | disableKind (context : ContextHandle) (kind : Kind)
  /-- Installs callbacks that take and give buffers, or ones that do neither. -/
  | registerCallbacks (enabled : Bool)
  /-- Completes the filled buffers, and with `forced` also those filled in part. -/
  | flushAll (forced : Bool)
  | pushCorrelation (id : CorrelationId)
  | popCorrelation
  | deviceTimestamp (context : ContextHandle)
  | droppedRecordCount (context : ContextHandle) (stream : StreamId)
  | subscribe
  | unsubscribe
  | finalize
  deriving DecidableEq

namespace ClientCall

def function : ClientCall → String
  | enableKind .. => "enable_kind"
  | disableKind .. => "disable_kind"
  | registerCallbacks _ => "register_buffer_callbacks"
  | flushAll _ => "flush_all"
  | pushCorrelation _ => "push_external_correlation"
  | popCorrelation => "pop_external_correlation"
  | deviceTimestamp _ => "device_timestamp"
  | droppedRecordCount .. => "dropped_record_count"
  | subscribe => "subscribe"
  | unsubscribe => "unsubscribe"
  | finalize => "finalize"

/-- What a successful call gives back. A flush gives the buffers that it completes. -/
@[reducible] def Reply : ClientCall → Type
  | flushAll _ => List Completion
  | popCorrelation | deviceTimestamp _ | droppedRecordCount .. => UInt64
  | _ => Unit

/-- The kind that a call enables or disables. -/
def kind? : ClientCall → Option Kind
  | enableKind _ kind | disableKind _ kind => some kind
  | _ => none

end ClientCall
end DeviceTrace
