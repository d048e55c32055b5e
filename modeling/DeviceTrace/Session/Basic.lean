import Std.Data.TreeMap
import DeviceTrace.Host.CorrelationStack
import DeviceTrace.Host.Worker
import DeviceTrace.Host.WorkerIds
import DeviceTrace.Monitor.Native

/-!
# Sessions

A session ties a client to the devices that are traced through it. It hands out buffers, takes
filled ones back and gives the records of each device to the callback of that device. It counts the
traces that hold the client and those that want records delivered, and tells the client when the
first comes and the last goes.
-/

namespace DeviceTrace

structure SessionConfig where
  layout : BufferLayout := ⟨64 * 1024, 8⟩
  /-- Whether a flush also completes buffers that are filled in part. -/
  forcedFlush : Bool := true
  filter : CallFilter := .standard
  handlesDropped : Bool := true
  hooksModules : Bool := true
  deriving DecidableEq, Repr

structure Device where
  /-- The id by which the host knows the device. -/
  globalId : Int32
  context : ContextHandle
  /-- The completion callback of the device's trace. -/
  callback : Option Nat := none
  deriving DecidableEq, Repr

/-- Where buffers for the client come from. -/
inductive BufferSource
  /-- The session allocates them. -/
  | session
  /-- A function of the tool supplies them, and may have none. -/
  | tool (label : Nat) (supply : BufferLayout → Option TraceBuffer)

structure Session where
  config : SessionConfig
  monitor : Monitor
  devices : Std.TreeMap DeviceId Device := {}
  source : BufferSource := .session
  /-- The traces that have started and not stopped. -/
  activeTraces : Nat := 0
  /-- The traces that have started and are not paused. -/
  deliveringTraces : Nat := 0
  counters : HostCounters := {}
  workerIds : WorkerIds := {}

namespace Session

/-- The size is looked at before the alignment, and both before the layout they form. -/
def build (config : SessionConfig) (client : DeviceClient) : Except TraceError Session :=
  let align := config.layout.align
  if config.layout.size = 0 then .error (.builder "buffer size must be non-zero")
  else if !isPowerOfTwo align then
    .error (.builder s!"buffer alignment {align} is not a power of two")
  else config.layout.checked.map fun _ => { config, monitor := { gateway := { client } } }

def gateway (s : Session) : Gateway := s.monitor.gateway

def withGateway (s : Session) (gateway : Gateway) : Session :=
  { s with monitor := { s.monitor with gateway } }

def emit (s : Session) (events : List Event) : Session := s.withGateway (s.gateway.emit events)

def ask (s : Session) (call : ClientCall) : Option call.Reply × Session :=
  let (reply, gateway) := s.gateway.ask call
  (reply, s.withGateway gateway)

def tell (s : Session) (call : ClientCall) : Session := s.withGateway (s.gateway.tell call)

/-! ## Devices -/

/-- Registers a device without a callback, in place of the one that had its id. -/
def register (s : Session) (id : DeviceId) (globalId : Int32) (context : ContextHandle) : Session :=
  { s with devices := s.devices.insert id { globalId, context } }

def contextOf? (s : Session) (id : DeviceId) : Option ContextHandle :=
  s.devices[id]?.map Device.context

def setCallback (s : Session) (id : DeviceId) (callback : Option Nat) : Session :=
  { s with devices := s.devices.modify id fun device => { device with callback } }

def noteModule (s : Session) (event : ModuleEvent) (id : UInt64) (image : Bytes) : Session :=
  if s.config.hooksModules then s.emit [.module event id image] else s

/-! ## Buffers -/

/-- A buffer for the client. Only the session's own source reports that it has none. -/
def supply (s : Session) : Option TraceBuffer × Session :=
  match s.source with
  | .session =>
    let (buffer, gateway) := s.gateway.check "buffer_request" (TraceBuffer.allocate s.config.layout)
    (buffer, s.withGateway gateway)
  | .tool label supply => (supply s.config.layout, s.emit [.request label s.config.layout])

/-- What a filled buffer causes for one of its spans. Records of a device without a callback are let
go. -/
def spanEvent? (s : Session) (bytes : Bytes) (span : Span) : Option Event :=
  match s.devices[span.device]? with
  | some device => device.callback.map fun callback =>
    .records callback ⟨device.globalId, span.context, bytes.slice span.start span.stop⟩
  | none => some (.failure ((TraceError.unknownDevice span.device).report "buffer_complete"))

def recordEvents (s : Session) (bytes : Bytes) : List Event :=
  let (spans, error) := contextSpans bytes
  spans.filterMap (s.spanEvent? bytes) ++
    error.toList.map fun e => .failure (e.report "buffer_complete")

theorem recordEvents_def (s : Session) (bytes : Bytes) :
    s.recordEvents bytes = (spans bytes).filterMap (s.spanEvent? bytes) ++
      (walkError bytes).toList.map fun e => .failure (e.report "buffer_complete") := rfl

def droppedEvents (s : Session) (dropped : Option UInt64) : List Event :=
  (dropped.filter fun n => s.config.handlesDropped && n > 0).toList.map .dropped

/-- Takes back a buffer: first the lost records are told, then each span goes to its device, and
last comes the error that ended the walk. -/
def takeBack (s : Session) (c : Completion) : Session :=
  let (dropped, s) := s.ask (.droppedRecordCount c.context c.stream)
  s.emit (s.droppedEvents dropped ++ s.recordEvents c.buffer.validBytes)

/-- Asks for a buffer through the callbacks that the client holds. -/
def supplyThroughClient (s : Session) : Option TraceBuffer × Session :=
  if s.gateway.client.delivering then s.supply else (none, s)

/-- Hands a buffer back through the callbacks that the client holds. -/
def takeBackThroughClient (s : Session) (c : Completion) : Session :=
  if s.gateway.client.delivering then s.takeBack c else s

/-- Has the client hand back the buffers that hold records. -/
def flush (s : Session) : Bool × Session :=
  match s.ask (.flushAll s.config.forcedFlush) with
  | (some waiting, s) => (true, waiting.foldl takeBackThroughClient s)
  | (none, s) => (false, s)

def clock (s : Session) (context : ContextHandle) : Option UInt64 × Session :=
  s.ask (.deviceTimestamp context)

/-! ## Kinds -/

def switchKinds (s : Session) (context : ContextHandle) (kinds : List Kind) (enable : Bool) :
    Reach × Session :=
  let (reach, monitor) := s.monitor.switchKinds context kinds enable
  (reach, { s with monitor })

def switchSet (s : Session) (context : ContextHandle) (set : KindSet) (enable : Bool) :
    Reach × Session :=
  s.switchKinds context set.kinds enable

def switchCategories (s : Session) (context : ContextHandle) (flags : UInt32) (enable : Bool) :
    NativeReach × Session :=
  let (reach, monitor) := s.monitor.switchCategories context flags enable
  (reach, { s with monitor })

def enabledKinds (s : Session) (context : ContextHandle) : List Kind :=
  s.monitor.enabled.kinds context

def forgetKinds (s : Session) (context : ContextHandle) : Session :=
  { s with monitor := s.monitor.forget context }

/-! ## Traces -/

/-- Counts a trace that starts. The first one subscribes. -/
def addTrace (s : Session) : Session :=
  let counted := { s with activeTraces := s.activeTraces + 1 }
  if s.activeTraces = 0 then counted.tell .subscribe else counted

/-- Counts off a trace that stops. The last one unsubscribes and finalizes the client. -/
def removeTrace (s : Session) : Session :=
  let counted := { s with activeTraces := s.activeTraces - 1 }
  if s.activeTraces = 1 then (counted.tell .unsubscribe).tell .finalize else counted

/-- Every trace that wants records registers the callbacks, also if they are registered. -/
def openDelivery (s : Session) : Session :=
  { s with deliveringTraces := s.deliveringTraces + 1 }.tell (.registerCallbacks true)

/-- Only the last trace that wanted records takes the callbacks away. -/
def closeDelivery (s : Session) : Session :=
  let counted := { s with deliveringTraces := s.deliveringTraces - 1 }
  if s.deliveringTraces = 1 then counted.tell (.registerCallbacks false) else counted

/-! ## Workers -/

/-- Handles the entry or exit of an API call of one worker. -/
def onCall (s : Session) (stack : CorrelationStack) (site : ApiSite) (function : ApiFunction)
    (id : Option CorrelationId) : CorrelationStack × Session :=
  let (stack, gateway) := stack.onCall s.config.filter site function id s.gateway
  (stack, s.withGateway gateway)

def idGenerator (s : Session) : IdGenerator × Session :=
  let (generator, workerIds) := s.workerIds.generator
  (generator, { s with workerIds })

end Session
end DeviceTrace
