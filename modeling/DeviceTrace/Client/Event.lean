import DeviceTrace.Client.Call
import DeviceTrace.Stream.Span

/-!
# Events at the border of a session

Everything that crosses the border of a session is an event: the calls of the client and whether
they failed, the failures told to the error handler, and the calls of the other handlers.
-/

namespace DeviceTrace

/-- The client has loaded or unloaded a module of device code. -/
inductive ModuleEvent
  | load
  | unload
  deriving DecidableEq, Repr

inductive Event
  /-- A call of the client, and the error it ended with, if any. -/
  | call (call : ClientCall) (failure : Option TraceError)
  /-- A report to the error handler. -/
  | failure (report : ErrorReport)
  /-- The number of records that were lost, told to the handler for them. -/
  | dropped (count : UInt64)
  | module (event : ModuleEvent) (id : UInt64) (image : Bytes)
  /-- Records handed to a completion callback. -/
  | records (callback : Nat) (batch : RecordBatch)
  /-- A buffer asked of a function of the tool. -/
  | request (source : Nat) (layout : BufferLayout)
  deriving DecidableEq

end DeviceTrace
