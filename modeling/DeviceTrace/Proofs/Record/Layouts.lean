import DeviceTrace.Proofs.Record.Drafts
import DeviceTrace.Record.Basic

/-!
# The layouts of the kinds

Which kinds have a layout, and where the fields of each lie. An encoded record is a draft of the
layout of its shape, so it is a whole record with the tag of its kind, and holds every number that
was written. A record that has no layout is a bare header.
-/

namespace DeviceTrace

namespace Field

def uint8 (offset : Nat) : Field := ⟨offset, 1⟩

def uint16 (offset : Nat) : Field := ⟨offset, 2⟩

def uint32 (offset : Nat) : Field := ⟨offset, 4⟩

def uint64 (offset : Nat) : Field := ⟨offset, 8⟩

end Field

namespace Layout

/-- A header without fields. -/
def bare : Layout where
  size := 8
  fields := []

def copy : Layout where
  size := 56
  fields := [.uint8 8, .uint8 9, .uint8 10, .uint8 11, .uint64 16, .uint64 24, .uint64 32,
    .uint32 40, .uint32 44, .uint32 48, .uint32 52]

/-- A copy between devices has two fields more than other copies. -/
def peerCopy : Layout where
  size := 64
  fields := copy.fields ++ [.uint32 56, .uint32 60]

def launch : Layout where
  size := 72
  fields := [.uint64 8, .uint64 16, .uint64 24, .uint32 32, .uint32 36, .uint32 40, .uint32 44,
    .uint32 48, .uint32 52, .uint32 56, .uint32 60, .uint32 64, .uint32 68]

def apiCall : Layout where
  size := 48
  fields := [.uint32 8, .uint32 12, .uint64 16, .uint64 24, .uint32 32, .uint32 36, .uint32 40]

def contextMark : Layout where
  size := 24
  fields := [.uint32 8, .uint32 12, .uint16 16, .uint16 18]

def overhead : Layout where
  size := 48
  fields := [.uint32 8, .uint32 12, .uint32 16, .uint32 20, .uint32 24, .uint64 32, .uint64 40]

def hostLink : Layout where
  size := 24
  fields := [.uint32 8, .uint32 12, .uint64 16]

def memoryCounter : Layout where
  size := 64
  fields := [.uint32 8, .uint32 12, .uint64 16, .uint64 24, .uint64 32, .uint64 40, .uint32 48,
    .uint32 52, .uint32 56, .uint32 60]

def sourceLocator : Layout where
  size := 16
  fields := [.uint32 8, .uint32 12]

def function : Layout where
  size := 24
  fields := [.uint32 8, .uint32 12, .uint32 16, .uint32 20]

def sample : Layout where
  size := 40
  fields := [.uint32 8, .uint32 12, .uint32 16, .uint32 20, .uint32 24, .uint32 28, .uint32 32]

def sampleTotals : Layout where
  size := 32
  fields := [.uint32 8, .uint64 16, .uint64 24]

end Layout

/-- The layout of the records of a kind, none if they are not read beyond their header. -/
def Kind.layout? : Kind → Option Layout
  | .memcpy => some .copy
  | .memcpy2 => some .peerCopy
  | .kernel | .concurrentKernel => some .launch
  | .driver | .runtime => some .apiCall
  | .context => some .contextMark
  | .overhead => some .overhead
  | .externalCorrelation => some .hostLink
  | .unifiedMemoryCounter => some .memoryCounter
  | .sourceLocator => some .sourceLocator
  | .function => some .function
  | .pcSampling => some .sample
  | .pcSamplingRecordInfo => some .sampleTotals
  | _ => none

/-- The layout that a view has to have room for. -/
def RecordView.layout (v : RecordView) : Layout := (v.kind?.bind Kind.layout?).getD .bare

namespace Entry

def uint8 (offset : Nat) (x : UInt8) : Entry := ⟨.uint8 offset, x.toNat, x.toNat_lt⟩

def uint16 (offset : Nat) (x : UInt16) : Entry := ⟨.uint16 offset, x.toNat, x.toNat_lt⟩

def uint32 (offset : Nat) (x : UInt32) : Entry := ⟨.uint32 offset, x.toNat, x.toNat_lt⟩

def int32 (offset : Nat) (x : Int32) : Entry := uint32 offset x.toUInt32

def uint64 (offset : Nat) (x : UInt64) : Entry := ⟨.uint64 offset, x.toNat, x.toNat_lt⟩

end Entry

namespace Record

/-- The tag with which a record is written. -/
def tag : Record → UInt32
  | .copy c => if c.peers.isSome then Kind.memcpy2.code else Kind.memcpy.code
  | .launch l => if l.concurrent then Kind.concurrentKernel.code else Kind.kernel.code
  | .driverCall _ => Kind.driver.code
  | .runtimeCall _ => Kind.runtime.code
  | .contextMark _ => Kind.context.code
  | .overhead _ => Kind.overhead.code
  | .hostLink _ => Kind.externalCorrelation.code
  | .memoryCounter _ => Kind.unifiedMemoryCounter.code
  | .sourceLocator _ => Kind.sourceLocator.code
  | .function _ => Kind.function.code
  | .sample _ => Kind.pcSampling.code
  | .sampleTotals _ => Kind.pcSamplingRecordInfo.code
  | .other kind => kind.code
  | .unknown tag => tag

/-- The layout in which a record is written. -/
def layout : Record → Layout
  | .copy c => if c.peers.isSome then .peerCopy else .copy
  | .launch _ => .launch
  | .driverCall _ | .runtimeCall _ => .apiCall
  | .contextMark _ => .contextMark
  | .overhead _ => .overhead
  | .hostLink _ => .hostLink
  | .memoryCounter _ => .memoryCounter
  | .sourceLocator _ => .sourceLocator
  | .function _ => .function
  | .sample _ => .sample
  | .sampleTotals _ => .sampleTotals
  | .other _ | .unknown _ => .bare

/-- The numbers that are written for a record. -/
def entries : Record → List Entry
  | .copy c =>
    [.uint8 8 (.ofNat (Coded.code c.direction)), .uint8 9 (.ofNat (Coded.code c.source)),
      .uint8 10 (.ofNat (Coded.code c.destination)),
      .uint8 11 (if c.isAsync then Copy.asyncFlag else 0), .uint64 16 c.size, .uint64 24 c.start,
      .uint64 32 c.finish, .uint32 40 c.device, .uint32 44 c.context, .uint32 48 c.stream,
      .uint32 52 c.correlation] ++
    match c.peers with
    | some peers => [.uint32 56 peers.source, .uint32 60 peers.destination]
    | none => []
  | .launch l =>
    [.uint64 8 l.start, .uint64 16 l.finish, .uint64 24 l.completed, .uint32 32 l.device,
      .uint32 36 l.context, .uint32 40 l.stream, .uint32 44 l.correlation, .int32 48 l.grid.x,
      .int32 52 l.grid.y, .int32 56 l.grid.z, .int32 60 l.block.x, .int32 64 l.block.y,
      .int32 68 l.block.z]
  | .driverCall c | .runtimeCall c =>
    [.uint32 8 c.callback, .uint32 12 c.returnValue, .uint64 16 c.start, .uint64 24 c.finish,
      .uint32 32 c.process, .uint32 36 c.thread, .uint32 40 c.correlation]
  | .contextMark m =>
    [.uint32 8 m.context, .uint32 12 m.device, .uint16 16 m.computeApi, .uint16 18 m.nullStream]
  | .overhead o =>
    [.uint32 8 (.ofNat (Coded.code o.overhead)), .uint32 12 (.ofNat (Coded.code o.object)),
      .uint32 16 o.objectIds.outer, .uint32 20 o.objectIds.middle, .uint32 24 o.objectIds.inner,
      .uint64 32 o.start, .uint64 40 o.finish]
  | .hostLink l =>
    [.uint32 8 (.ofNat (Coded.code l.kind)), .uint32 12 l.correlation, .uint64 16 l.external]
  | .memoryCounter c =>
    .uint32 8 (.ofNat (Coded.code c.kind)) ::
    match c with
    | .hostToDevice t | .deviceToHost t | .deviceToDevice t =>
      [.uint32 12 (.ofNat (Coded.code t.cause)), .uint64 16 t.size, .uint64 24 t.start,
        .uint64 32 t.finish, .uint64 40 t.address, .uint32 48 t.source, .uint32 52 t.destination,
        .uint32 56 t.stream, .uint32 60 t.process]
    | .count _ value => [.uint64 16 value]
  | .sourceLocator l => [.uint32 8 l.id, .uint32 12 l.line]
  | .function f =>
    [.uint32 8 f.id, .uint32 12 f.context, .uint32 16 f.image, .uint32 20 f.index]
  | .sample s =>
    [.uint32 8 s.flags, .uint32 12 s.locator, .uint32 16 s.correlation, .uint32 20 s.function,
      .uint32 24 s.offset, .uint32 28 s.samples, .uint32 32 (.ofNat (Coded.code s.stall))]
  | .sampleTotals t => [.uint32 8 t.correlation, .uint64 16 t.total, .uint64 24 t.dropped]
  | .other _ | .unknown _ => []

theorem encode_eq_draft (r : Record) : r.encode = (r.layout.draft r.tag r.entries).bytes := by
  cases r with
  | copy c => rcases c with ⟨_, _, _, _, _, _, _, _, _, _, _, _ | peers⟩ <;> rfl
  | launch l => rcases l with ⟨_ | _⟩ <;> rfl
  | memoryCounter c => cases c <;> rfl
  | driverCall | runtimeCall | contextMark | overhead | hostLink | sourceLocator | function | sample
    | sampleTotals | other | unknown => rfl

/-- A counter that is no transfer fills some fields of its layout, all others fill all of theirs. -/
theorem entries_sublist (r : Record) : (r.entries.map Entry.field).Sublist r.layout.fields := by
  cases r with
  | copy c => rcases c with ⟨_, _, _, _, _, _, _, _, _, _, _, _ | peers⟩ <;> exact .refl _
  | memoryCounter c =>
    cases c with
    | hostToDevice | deviceToHost | deviceToDevice => exact .refl _
    | count kind value =>
      show [Field.uint32 8, Field.uint64 16].Sublist Layout.memoryCounter.fields
      decide
  | launch | driverCall | runtimeCall | contextMark | overhead | hostLink | sourceLocator | function
    | sample | sampleTotals | other | unknown => exact .refl _

end Record
end DeviceTrace
