import DeviceTrace.Record.Basic

/-!
# Records described by named fields

`Record.describe` names the shape of a record and its fields, and `Record.ofDescription?` reads such
a description back.
-/

namespace DeviceTrace

def Kind.ofLabel? (label : String) : Option Kind := Kind.all.find? (·.label = label)

namespace Copy

def describe (c : Copy) : Datum :=
  let peers (p : CopyPeers) : Datum :=
    .fields [("source", .ofUInt32 p.source), ("destination", .ofUInt32 p.destination)]
  .fields [
    ("copy_kind", Coded.toDatum c.direction), ("src_kind", Coded.toDatum c.source),
    ("dst_kind", Coded.toDatum c.destination), ("is_async", .flag c.isAsync),
    ("bytes", .ofUInt64 c.size), ("start", .ofUInt64 c.start), ("end", .ofUInt64 c.finish),
    ("device_id", .ofUInt32 c.device), ("context_id", .ofUInt32 c.context),
    ("stream_id", .ofUInt32 c.stream), ("correlation_id", .ofUInt32 c.correlation),
    ("peer", .ofOption peers c.peers)]

def ofDescription? (d : Datum) : Option Copy := do
  let peers ← (d.field "peer").present?.mapM fun p =>
    return CopyPeers.mk (← p.uint32? "source") (← p.uint32? "destination")
  return {
    direction := ← Coded.ofField? d "copy_kind"
    source := ← Coded.ofField? d "src_kind"
    destination := ← Coded.ofField? d "dst_kind"
    isAsync := ← d.flag? "is_async"
    size := ← d.uint64? "bytes"
    start := ← d.uint64? "start"
    finish := ← d.uint64? "end"
    device := ← d.uint32? "device_id"
    context := ← d.uint32? "context_id"
    stream := ← d.uint32? "stream_id"
    correlation := ← d.uint32? "correlation_id"
    peers }

end Copy

namespace Launch

def describe (l : Launch) : Datum :=
  .fields [
    ("concurrent", .flag l.concurrent), ("start", .ofUInt64 l.start), ("end", .ofUInt64 l.finish),
    ("completed", .ofUInt64 l.completed), ("device_id", .ofUInt32 l.device),
    ("context_id", .ofUInt32 l.context), ("stream_id", .ofUInt32 l.stream),
    ("correlation_id", .ofUInt32 l.correlation),
    ("grid_x", .ofInt32 l.grid.x), ("grid_y", .ofInt32 l.grid.y), ("grid_z", .ofInt32 l.grid.z),
    ("block_x", .ofInt32 l.block.x), ("block_y", .ofInt32 l.block.y),
    ("block_z", .ofInt32 l.block.z)]

def ofDescription? (d : Datum) : Option Launch := do
  return {
    concurrent := ← d.flag? "concurrent"
    start := ← d.uint64? "start"
    finish := ← d.uint64? "end"
    completed := ← d.uint64? "completed"
    device := ← d.uint32? "device_id"
    context := ← d.uint32? "context_id"
    stream := ← d.uint32? "stream_id"
    correlation := ← d.uint32? "correlation_id"
    grid := ⟨← d.int32? "grid_x", ← d.int32? "grid_y", ← d.int32? "grid_z"⟩
    block := ⟨← d.int32? "block_x", ← d.int32? "block_y", ← d.int32? "block_z"⟩ }

end Launch

namespace ApiCall

def describe (c : ApiCall) : Datum :=
  .fields [
    ("callback_id", .ofUInt32 c.callback), ("return_value", .ofUInt32 c.returnValue),
    ("start", .ofUInt64 c.start), ("end", .ofUInt64 c.finish),
    ("process_id", .ofUInt32 c.process), ("thread_id", .ofUInt32 c.thread),
    ("correlation_id", .ofUInt32 c.correlation)]

def ofDescription? (d : Datum) : Option ApiCall := do
  return {
    callback := ← d.uint32? "callback_id"
    returnValue := ← d.uint32? "return_value"
    start := ← d.uint64? "start"
    finish := ← d.uint64? "end"
    process := ← d.uint32? "process_id"
    thread := ← d.uint32? "thread_id"
    correlation := ← d.uint32? "correlation_id" }

end ApiCall

namespace ContextMark

def describe (m : ContextMark) : Datum :=
  .fields [
    ("context_id", .ofUInt32 m.context), ("device_id", .ofUInt32 m.device),
    ("compute_api_kind", .ofUInt16 m.computeApi), ("null_stream_id", .ofUInt16 m.nullStream)]

def ofDescription? (d : Datum) : Option ContextMark := do
  return {
    context := ← d.uint32? "context_id"
    device := ← d.uint32? "device_id"
    computeApi := ← d.uint16? "compute_api_kind"
    nullStream := ← d.uint16? "null_stream_id" }

end ContextMark

namespace Overhead

def describe (o : Overhead) : Datum :=
  .fields [
    ("overhead_kind", Coded.toDatum o.overhead), ("object_kind", Coded.toDatum o.object),
    ("object_ids", .list [.ofUInt32 o.objectIds.outer, .ofUInt32 o.objectIds.middle,
      .ofUInt32 o.objectIds.inner]),
    ("start", .ofUInt64 o.start), ("end", .ofUInt64 o.finish)]

def ofDescription? (d : Datum) : Option Overhead := do
  match ← (← (d.field "object_ids").toList?).mapM Datum.toUInt32? with
  | [outer, middle, inner] => return {
      overhead := ← Coded.ofField? d "overhead_kind"
      object := ← Coded.ofField? d "object_kind"
      objectIds := { outer, middle, inner }
      start := ← d.uint64? "start"
      finish := ← d.uint64? "end" }
  | _ => none

end Overhead

namespace HostLink

def describe (l : HostLink) : Datum :=
  .fields [
    ("external_kind", Coded.toDatum l.kind), ("correlation_id", .ofUInt32 l.correlation),
    ("external_id", .ofUInt64 l.external)]

def ofDescription? (d : Datum) : Option HostLink := do
  return {
    kind := ← Coded.ofField? d "external_kind"
    correlation := ← d.uint32? "correlation_id"
    external := ← d.uint64? "external_id" }

end HostLink

namespace MemoryTransfer

def describe (t : MemoryTransfer) : Datum :=
  .fields [
    ("memory_region_bytes", .ofUInt64 t.size), ("start", .ofUInt64 t.start),
    ("end", .ofUInt64 t.finish), ("virtual_base_address", .ofUInt64 t.address),
    ("source_device_id", .ofUInt32 t.source), ("destination_device_id", .ofUInt32 t.destination),
    ("stream_id", .ofUInt32 t.stream), ("process_id", .ofUInt32 t.process),
    ("migration_cause", Coded.toDatum t.cause)]

def ofDescription? (d : Datum) : Option MemoryTransfer := do
  return {
    size := ← d.uint64? "memory_region_bytes"
    start := ← d.uint64? "start"
    finish := ← d.uint64? "end"
    address := ← d.uint64? "virtual_base_address"
    source := ← d.uint32? "source_device_id"
    destination := ← d.uint32? "destination_device_id"
    stream := ← d.uint32? "stream_id"
    process := ← d.uint32? "process_id"
    cause := ← Coded.ofField? d "migration_cause" }

end MemoryTransfer

namespace MemoryCounter

/-- A transfer is described under the name of its counter. -/
def describe (c : MemoryCounter) : Datum :=
  match c with
  | .hostToDevice t | .deviceToHost t | .deviceToDevice t =>
    .fields [(Coded.name c.kind, t.describe)]
  | .count kind value =>
    .fields [("Count", .fields [("kind", Coded.toDatum kind), ("value", .ofUInt64 value)])]

def ofDescription? : Datum → Option MemoryCounter
  | .fields [("Count", d)] => do return .count (← Coded.ofField? d "kind") (← d.uint64? "value")
  | .fields [(name, d)] => do
    let transfer ← MemoryTransfer.ofDescription? d
    match (← Coded.ofName? name : CounterKind) with
    | .hostToDevice => return .hostToDevice transfer
    | .deviceToHost => return .deviceToHost transfer
    | .deviceToDevice => return .deviceToDevice transfer
    | _ => none
  | _ => none

end MemoryCounter

namespace SourceLocator

def describe (l : SourceLocator) : Datum :=
  .fields [("id", .ofUInt32 l.id), ("line_number", .ofUInt32 l.line)]

def ofDescription? (d : Datum) : Option SourceLocator := do
  return { id := ← d.uint32? "id", line := ← d.uint32? "line_number" }

end SourceLocator

namespace KernelFunction

def describe (f : KernelFunction) : Datum :=
  .fields [
    ("id", .ofUInt32 f.id), ("context_id", .ofUInt32 f.context),
    ("module_id", .ofUInt32 f.image), ("function_index", .ofUInt32 f.index)]

def ofDescription? (d : Datum) : Option KernelFunction := do
  return {
    id := ← d.uint32? "id"
    context := ← d.uint32? "context_id"
    image := ← d.uint32? "module_id"
    index := ← d.uint32? "function_index" }

end KernelFunction

namespace CounterSample

def describe (s : CounterSample) : Datum :=
  .fields [
    ("flags", .ofUInt32 s.flags), ("source_locator_id", .ofUInt32 s.locator),
    ("correlation_id", .ofUInt32 s.correlation), ("function_id", .ofUInt32 s.function),
    ("pc_offset", .ofUInt32 s.offset), ("samples", .ofUInt32 s.samples),
    ("stall_reason", Coded.toDatum s.stall)]

def ofDescription? (d : Datum) : Option CounterSample := do
  return {
    flags := ← d.uint32? "flags"
    locator := ← d.uint32? "source_locator_id"
    correlation := ← d.uint32? "correlation_id"
    function := ← d.uint32? "function_id"
    offset := ← d.uint32? "pc_offset"
    samples := ← d.uint32? "samples"
    stall := ← Coded.ofField? d "stall_reason" }

end CounterSample

namespace SampleTotals

def describe (t : SampleTotals) : Datum :=
  .fields [
    ("correlation_id", .ofUInt32 t.correlation), ("total_samples", .ofUInt64 t.total),
    ("dropped_samples", .ofUInt64 t.dropped)]

def ofDescription? (d : Datum) : Option SampleTotals := do
  return {
    correlation := ← d.uint32? "correlation_id"
    total := ← d.uint64? "total_samples"
    dropped := ← d.uint64? "dropped_samples" }

end SampleTotals

namespace Record

def describe : Record → Datum
  | .copy c => .fields [("Memcpy", c.describe)]
  | .launch l => .fields [("Kernel", l.describe)]
  | .driverCall c => .fields [("DriverApi", c.describe)]
  | .runtimeCall c => .fields [("RuntimeApi", c.describe)]
  | .contextMark m => .fields [("Context", m.describe)]
  | .overhead o => .fields [("Overhead", o.describe)]
  | .hostLink l => .fields [("ExternalCorrelation", l.describe)]
  | .memoryCounter c => .fields [("UnifiedMemoryCounter", c.describe)]
  | .sourceLocator l => .fields [("SourceLocator", l.describe)]
  | .function f => .fields [("Function", f.describe)]
  | .sample s => .fields [("PcSampling", s.describe)]
  | .sampleTotals t => .fields [("PcSamplingRecordInfo", t.describe)]
  | .other kind => .fields [("Other", .text kind.label)]
  | .unknown tag => .fields [("Unknown", .ofUInt32 tag)]

def ofDescription? : Datum → Option Record
  | .fields [(shape, d)] =>
    match shape with
    | "Memcpy" => .copy <$> Copy.ofDescription? d
    | "Kernel" => .launch <$> Launch.ofDescription? d
    | "DriverApi" => .driverCall <$> ApiCall.ofDescription? d
    | "RuntimeApi" => .runtimeCall <$> ApiCall.ofDescription? d
    | "Context" => .contextMark <$> ContextMark.ofDescription? d
    | "Overhead" => .overhead <$> Overhead.ofDescription? d
    | "ExternalCorrelation" => .hostLink <$> HostLink.ofDescription? d
    | "UnifiedMemoryCounter" => .memoryCounter <$> MemoryCounter.ofDescription? d
    | "SourceLocator" => .sourceLocator <$> SourceLocator.ofDescription? d
    | "Function" => .function <$> KernelFunction.ofDescription? d
    | "PcSampling" => .sample <$> CounterSample.ofDescription? d
    | "PcSamplingRecordInfo" => .sampleTotals <$> SampleTotals.ofDescription? d
    | "Other" => .other <$> d.toText?.bind Kind.ofLabel?
    | "Unknown" => .unknown <$> d.toUInt32?
    | _ => none
  | _ => none

end Record
end DeviceTrace
