import DeviceTrace.Record.Basic

/-!
# Summaries of records

A summary says the same things of every record: what it is, when it ran and on which thread. What a
record does not tell is none.
-/

namespace DeviceTrace

inductive SummaryType
  | memcpyExplicit | memcpyImplicit | kernelInvocation | kernelSourceLocator | kernelPcSample
  | kernelPcSamplingInfo | function | driver | runtime | overhead
  deriving DecidableEq, Repr

def SummaryType.label : SummaryType → String
  | .memcpyExplicit => "MEMCPY EXPLICIT"
  | .memcpyImplicit => "MEMCPY IMPLICIT"
  | .kernelInvocation => "KERNEL INVOCATION"
  | .kernelSourceLocator => "KERNEL SOURCE LOCATOR"
  | .kernelPcSample => "KERNEL PC SAMPLE"
  | .kernelPcSamplingInfo => "KERNEL PC SAMPLING INFO"
  | .function => "FUNCTION"
  | .driver => "DRIVER"
  | .runtime => "RUNTIME"
  | .overhead => "OVERHEAD"

structure Summary where
  type : Option SummaryType := none
  start : Option Timestamp := none
  finish : Option Timestamp := none
  hardwareId : Option UInt64 := none
  deriving DecidableEq, Repr

namespace Summary

def untimed (type : SummaryType) : Summary := { type := some type }

def spanning (type : SummaryType) (start finish : Timestamp) : Summary :=
  { type := some type, start := some start, finish := some finish }

/-- A copy between devices has no summary type. -/
def ofCopy (c : Copy) : Summary :=
  if c.peers.isSome then {} else spanning .memcpyExplicit c.start c.finish

def ofCounter (c : MemoryCounter) : Summary :=
  match c.transfer? with
  | some t => spanning .memcpyImplicit t.start t.finish
  | none => untimed .memcpyImplicit

def ofCall (type : SummaryType) (c : ApiCall) : Summary :=
  { spanning type c.start c.finish with hardwareId := some c.thread.toUInt64 }

def ofRecord : Record → Summary
  | .copy c => ofCopy c
  | .memoryCounter c => ofCounter c
  | .launch l => spanning .kernelInvocation l.start l.finish
  | .sourceLocator _ => untimed .kernelSourceLocator
  | .sample _ => untimed .kernelPcSample
  | .sampleTotals _ => untimed .kernelPcSamplingInfo
  | .function _ => untimed .function
  | .driverCall c => ofCall .driver c
  | .runtimeCall c => ofCall .runtime c
  | .overhead o => spanning .overhead o.start o.finish
  | .contextMark _ | .hostLink _ | .other _ | .unknown _ => {}

end Summary
end DeviceTrace
