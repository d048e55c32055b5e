import DeviceTrace.Record.ApiCall
import DeviceTrace.Record.ContextMark
import DeviceTrace.Record.Copy
import DeviceTrace.Record.HostLink
import DeviceTrace.Record.Launch
import DeviceTrace.Record.MemoryCounter
import DeviceTrace.Record.Overhead
import DeviceTrace.Record.Sampling

/-!
# Records

A record is one of the shapes that have a layout, a known kind without one, or an unknown tag. The
last two are bare headers when they are written.
-/

namespace DeviceTrace

inductive Record
  | copy (copy : Copy)
  | launch (launch : Launch)
  | driverCall (call : ApiCall)
  | runtimeCall (call : ApiCall)
  | contextMark (mark : ContextMark)
  | overhead (overhead : Overhead)
  | hostLink (link : HostLink)
  | memoryCounter (counter : MemoryCounter)
  | sourceLocator (locator : SourceLocator)
  | function (function : KernelFunction)
  | sample (sample : CounterSample)
  | sampleTotals (totals : SampleTotals)
  | other (kind : Kind)
  | unknown (tag : UInt32)
  deriving DecidableEq, Repr

namespace Record

def decode (v : RecordView) : Except TraceError Record :=
  match v.kind? with
  | none => .ok (.unknown v.tag)
  | some kind =>
    match kind with
    | .memcpy | .memcpy2 => (Copy.decode v).map .copy
    | .kernel | .concurrentKernel => (Launch.decode v).map .launch
    | .driver => (ApiCall.decode v).map .driverCall
    | .runtime => (ApiCall.decode v).map .runtimeCall
    | .context => (ContextMark.decode v).map .contextMark
    | .overhead => (Overhead.decode v).map .overhead
    | .externalCorrelation => (HostLink.decode v).map .hostLink
    | .unifiedMemoryCounter => (MemoryCounter.decode v).map .memoryCounter
    | .sourceLocator => (SourceLocator.decode v).map .sourceLocator
    | .function => (KernelFunction.decode v).map .function
    | .pcSampling => (CounterSample.decode v).map .sample
    | .pcSamplingRecordInfo => (SampleTotals.decode v).map .sampleTotals
    | bare => .ok (.other bare)

def encode : Record → Bytes
  | .copy c => c.encode
  | .launch l => l.encode
  | .driverCall c => c.encode .driver
  | .runtimeCall c => c.encode .runtime
  | .contextMark m => m.encode
  | .overhead o => o.encode
  | .hostLink l => l.encode
  | .memoryCounter c => c.encode
  | .sourceLocator l => l.encode
  | .function f => f.encode
  | .sample s => s.encode
  | .sampleTotals t => t.encode
  | .other kind => (Draft.new kind.code 0).bytes
  | .unknown tag => (Draft.new tag 0).bytes

/-- The id that ties a record to the API call that caused it. -/
def correlation? : Record → Option DeviceCorrelationId
  | .copy c => some c.correlation
  | .launch l => some l.correlation
  | .driverCall c | .runtimeCall c => some c.correlation
  | .sample s => some s.correlation
  | .sampleTotals t => some t.correlation
  | _ => none

end Record
end DeviceTrace
