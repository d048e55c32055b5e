/-!
# Record kinds

The kinds are numbered by their place in `Kind.all`, and that number is the tag of a record's
header. `invalid` also ends a list of kinds.
-/

namespace DeviceTrace

inductive Kind
  | invalid | memcpy | memset | kernel | driver | runtime | event | metric | device | context
  | concurrentKernel | name | marker | markerData | sourceLocator | globalAccess | branch
  | overhead | cdpKernel | preemption | environment | eventInstance | memcpy2 | metricInstance
  | instructionExecution | unifiedMemoryCounter | function | module | deviceAttribute
  | sharedAccess | pcSampling | pcSamplingRecordInfo | instructionCorrelation | openaccData
  | openaccLaunch | openaccOther | cudaEvent | stream | synchronization | externalCorrelation
  | nvlink | instantaneousEvent | instantaneousEventInstance | instantaneousMetric
  | instantaneousMetricInstance
  deriving DecidableEq, Repr

namespace Kind

def all : List Kind :=
  [.invalid, .memcpy, .memset, .kernel, .driver, .runtime, .event, .metric, .device, .context,
   .concurrentKernel, .name, .marker, .markerData, .sourceLocator, .globalAccess, .branch,
   .overhead, .cdpKernel, .preemption, .environment, .eventInstance, .memcpy2, .metricInstance,
   .instructionExecution, .unifiedMemoryCounter, .function, .module, .deviceAttribute,
   .sharedAccess, .pcSampling, .pcSamplingRecordInfo, .instructionCorrelation, .openaccData,
   .openaccLaunch, .openaccOther, .cudaEvent, .stream, .synchronization, .externalCorrelation,
   .nvlink, .instantaneousEvent, .instantaneousEventInstance, .instantaneousMetric,
   .instantaneousMetricInstance]

def label : Kind → String
  | .invalid => "Invalid"
  | .memcpy => "Memcpy"
  | .memset => "Memset"
  | .kernel => "Kernel"
  | .driver => "Driver"
  | .runtime => "Runtime"
  | .event => "Event"
  | .metric => "Metric"
  | .device => "Device"
  | .context => "Context"
  | .concurrentKernel => "ConcurrentKernel"
  | .name => "Name"
  | .marker => "Marker"
  | .markerData => "MarkerData"
  | .sourceLocator => "SourceLocator"
  | .globalAccess => "GlobalAccess"
  | .branch => "Branch"
  | .overhead => "Overhead"
  | .cdpKernel => "CdpKernel"
  | .preemption => "Preemption"
  | .environment => "Environment"
  | .eventInstance => "EventInstance"
  | .memcpy2 => "Memcpy2"
  | .metricInstance => "MetricInstance"
  | .instructionExecution => "InstructionExecution"
  | .unifiedMemoryCounter => "UnifiedMemoryCounter"
  | .function => "Function"
  | .module => "Module"
  | .deviceAttribute => "DeviceAttribute"
  | .sharedAccess => "SharedAccess"
  | .pcSampling => "PcSampling"
  | .pcSamplingRecordInfo => "PcSamplingRecordInfo"
  | .instructionCorrelation => "InstructionCorrelation"
  | .openaccData => "OpenaccData"
  | .openaccLaunch => "OpenaccLaunch"
  | .openaccOther => "OpenaccOther"
  | .cudaEvent => "CudaEvent"
  | .stream => "Stream"
  | .synchronization => "Synchronization"
  | .externalCorrelation => "ExternalCorrelation"
  | .nvlink => "Nvlink"
  | .instantaneousEvent => "InstantaneousEvent"
  | .instantaneousEventInstance => "InstantaneousEventInstance"
  | .instantaneousMetric => "InstantaneousMetric"
  | .instantaneousMetricInstance => "InstantaneousMetricInstance"

def code (kind : Kind) : UInt32 := UInt32.ofNat (all.idxOf kind)

def ofCode? (tag : UInt32) : Option Kind := all[tag.toNat]?

theorem mem_all (kind : Kind) : kind ∈ all := by cases kind <;> decide

theorem nodup_all : all.Nodup := by decide

theorem ofCode?_code (kind : Kind) : ofCode? kind.code = some kind := by cases kind <;> rfl

end Kind
end DeviceTrace
