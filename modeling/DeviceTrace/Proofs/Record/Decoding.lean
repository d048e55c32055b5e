import Mathlib.Data.List.Nodup
import DeviceTrace.Proofs.Record.Layouts

/-!
# What decoding reads

A view is decoded in two steps: it has to have room for the layout of its kind, and then its fields
are read. What is read depends on the tag and on the fields of the layout alone. It is a record of
that tag and layout, and every record that is `Readable` is read from its own numbers.
-/

namespace DeviceTrace

/-! ## Enumerations -/

/-- Every value of the enumeration is read back from its number in a field of this width. -/
class Coded.Fits (α : Type) [Coded α] [Inhabited α] [DecidableEq α] (width : Nat) : Prop where
  ofCode_code : ∀ a : α, Coded.ofCode (Coded.code a % 256 ^ width) = a

instance : Coded.Fits CopyDirection 1 := ⟨fun a => by cases a <;> rfl⟩

instance : Coded.Fits MemoryKind 1 := ⟨fun a => by cases a <;> rfl⟩

instance : Coded.Fits OverheadKind 4 := ⟨fun a => by cases a <;> rfl⟩

instance : Coded.Fits ObjectKind 4 := ⟨fun a => by cases a <;> rfl⟩

instance : Coded.Fits LinkKind 4 := ⟨fun a => by cases a <;> rfl⟩

instance : Coded.Fits CounterKind 4 := ⟨fun a => by cases a <;> rfl⟩

instance : Coded.Fits MigrationCause 4 := ⟨fun a => by cases a <;> rfl⟩

instance : Coded.Fits StallReason 4 := ⟨fun a => by cases a <;> rfl⟩

namespace Coded

variable {α : Type} [Coded α] [Inhabited α] [DecidableEq α]

@[simp] theorem ofCode_uint8 [fits : Fits α 1] (a : α) : ofCode (code a % 256) = a :=
  fits.ofCode_code a

@[simp] theorem ofCode_uint32 [fits : Fits α 4] (a : α) : ofCode (code a % 4294967296) = a :=
  fits.ofCode_code a

end Coded

/-! ## Kinds and tags -/

theorem Kind.code_of_ofCode? {tag : UInt32} {kind : Kind} (h : ofCode? tag = some kind) :
    kind.code = tag := by
  obtain ⟨hlt, rfl⟩ := List.getElem?_eq_some_iff.mp h
  rw [code, nodup_all.idxOf_getElem, UInt32.ofNat_toNat]

theorem Kind.ofCode?_eq_none_iff (tag : UInt32) : ofCode? tag = none ↔ 44 < tag := by
  unfold ofCode?
  rw [List.getElem?_eq_none_iff, UInt32.lt_iff_toNat_lt]
  exact Iff.rfl

/-! ## Fields of a view -/

namespace RecordView

variable (v : RecordView) (offset : Nat)

@[simp] theorem uint8At_eq : v.uint8At offset = .ofNat (v.wordIn (.uint8 offset)) := rfl

@[simp] theorem uint16At_eq : v.uint16At offset = .ofNat (v.wordIn (.uint16 offset)) := rfl

@[simp] theorem uint32At_eq : v.uint32At offset = .ofNat (v.wordIn (.uint32 offset)) := rfl

@[simp] theorem int32At_eq :
    v.int32At offset = (UInt32.ofNat (v.wordIn (.uint32 offset))).toInt32 := rfl

@[simp] theorem uint64At_eq : v.uint64At offset = .ofNat (v.wordIn (.uint64 offset)) := rfl

variable {v} {kind : Kind} {α : Type} {needed : Nat}

@[simp] theorem require_of_le (h : needed ≤ v.size) (value : α) :
    v.require needed value = .ok value :=
  if_neg (Nat.not_lt.mpr h)

theorem map_require {β : Type} (f : α → β) (value : α) :
    (v.require needed value).map f = v.require needed (f value) := by
  unfold require
  split <;> rfl

theorem require_eq_ok_iff {value result : α} :
    v.require needed value = .ok result ↔ needed ≤ v.size ∧ value = result := by
  unfold require
  rw [← Nat.not_lt]
  split <;> simp [*]

theorem require_eq_error_iff (hkind : v.kind? = some kind) {value : α} {e : TraceError} :
    v.require needed value = .error e ↔
      v.size < needed ∧ e = .truncated kind.label v.size needed := by
  unfold require
  rw [hkind]
  split <;> simp [*, eq_comm]

theorem kind?_of_tag (h : v.tag = kind.code) : v.kind? = some kind := by
  rw [kind?, h, Kind.ofCode?_code]

theorem layout_eq (hkind : v.kind? = some kind) : v.layout = kind.layout?.getD .bare := by
  rw [layout, hkind, Option.bind_some]

end RecordView

/-! ## What a view reads as

Every decoder asks for room and then reads; the values are those that are read with or without room.
-/

def Copy.ofView (v : RecordView) : Copy where
  direction := Coded.ofCode (v.uint8At 8).toNat
  source := Coded.ofCode (v.uint8At 9).toNat
  destination := Coded.ofCode (v.uint8At 10).toNat
  isAsync := v.uint8At 11 &&& Copy.asyncFlag != 0
  size := v.uint64At 16
  start := v.uint64At 24
  finish := v.uint64At 32
  device := v.uint32At 40
  context := v.uint32At 44
  stream := v.uint32At 48
  correlation := v.uint32At 52
  peers := if v.kind? = some .memcpy2 then some ⟨v.uint32At 56, v.uint32At 60⟩ else none

def Launch.ofView (v : RecordView) : Launch where
  concurrent := v.kind? = some .concurrentKernel
  start := v.uint64At 8
  finish := v.uint64At 16
  completed := v.uint64At 24
  device := v.uint32At 32
  context := v.uint32At 36
  stream := v.uint32At 40
  correlation := v.uint32At 44
  grid := ⟨v.int32At 48, v.int32At 52, v.int32At 56⟩
  block := ⟨v.int32At 60, v.int32At 64, v.int32At 68⟩

def ApiCall.ofView (v : RecordView) : ApiCall where
  callback := v.uint32At 8
  returnValue := v.uint32At 12
  start := v.uint64At 16
  finish := v.uint64At 24
  process := v.uint32At 32
  thread := v.uint32At 36
  correlation := v.uint32At 40

def ContextMark.ofView (v : RecordView) : ContextMark where
  context := v.uint32At 8
  device := v.uint32At 12
  computeApi := v.uint16At 16
  nullStream := v.uint16At 18

def Overhead.ofView (v : RecordView) : Overhead where
  overhead := Coded.ofCode (v.uint32At 8).toNat
  object := Coded.ofCode (v.uint32At 12).toNat
  objectIds := ⟨v.uint32At 16, v.uint32At 20, v.uint32At 24⟩
  start := v.uint64At 32
  finish := v.uint64At 40

def HostLink.ofView (v : RecordView) : HostLink where
  kind := Coded.ofCode (v.uint32At 8).toNat
  correlation := v.uint32At 12
  external := v.uint64At 16

def MemoryCounter.ofView (v : RecordView) : MemoryCounter :=
  match (Coded.ofCode (v.uint32At 8).toNat : CounterKind) with
  | .hostToDevice => .hostToDevice (.ofView v)
  | .deviceToHost => .deviceToHost (.ofView v)
  | .deviceToDevice => .deviceToDevice (.ofView v)
  | kind => .count kind (v.uint64At 16)

def SourceLocator.ofView (v : RecordView) : SourceLocator where
  id := v.uint32At 8
  line := v.uint32At 12

def KernelFunction.ofView (v : RecordView) : KernelFunction where
  id := v.uint32At 8
  context := v.uint32At 12
  image := v.uint32At 16
  index := v.uint32At 20

def CounterSample.ofView (v : RecordView) : CounterSample where
  flags := v.uint32At 8
  locator := v.uint32At 12
  correlation := v.uint32At 16
  function := v.uint32At 20
  offset := v.uint32At 24
  samples := v.uint32At 28
  stall := Coded.ofCode (v.uint32At 32).toNat

def SampleTotals.ofView (v : RecordView) : SampleTotals where
  correlation := v.uint32At 8
  total := v.uint64At 16
  dropped := v.uint64At 24

namespace Record

def ofView (v : RecordView) : Record :=
  match v.kind? with
  | none => .unknown v.tag
  | some kind =>
    match kind with
    | .memcpy | .memcpy2 => .copy (.ofView v)
    | .kernel | .concurrentKernel => .launch (.ofView v)
    | .driver => .driverCall (.ofView v)
    | .runtime => .runtimeCall (.ofView v)
    | .context => .contextMark (.ofView v)
    | .overhead => .overhead (.ofView v)
    | .externalCorrelation => .hostLink (.ofView v)
    | .unifiedMemoryCounter => .memoryCounter (.ofView v)
    | .sourceLocator => .sourceLocator (.ofView v)
    | .function => .function (.ofView v)
    | .pcSampling => .sample (.ofView v)
    | .pcSamplingRecordInfo => .sampleTotals (.ofView v)
    | bare => .other bare

variable {v w : RecordView} {r : Record}

/-- A view of a kind with a layout is decoded if it has room for the layout. -/
theorem decode_eq_require {kind : Kind} {l : Layout} (hkind : v.kind? = some kind)
    (hlayout : kind.layout? = some l) : decode v = v.require l.size (ofView v) := by
  have hcopy : Copy.decode v =
      v.require (if v.kind? = some .memcpy2 then Copy.peerLayoutSize else Copy.layoutSize)
        (.ofView v) := by
    simp [Copy.decode, Copy.ofView]
  unfold decode ofView
  rw [hkind] at hcopy ⊢
  cases kind <;> cases hlayout
  case memcpy | memcpy2 => exact (congrArg _ hcopy).trans (RecordView.map_require ..)
  all_goals exact RecordView.map_require ..

theorem decode_of_bare (h : v.kind?.bind Kind.layout? = none) : decode v = .ok (ofView v) := by
  unfold decode ofView
  cases hkind : v.kind? with
  | none => rfl
  | some kind =>
    rw [hkind] at h
    cases kind <;> first | rfl | cases h

theorem decode_cases (v : RecordView) :
    decode v = .ok (ofView v) ∧ v.kind?.bind Kind.layout? = none ∨
      ∃ kind, v.kind? = some kind ∧ kind.layout? = some v.layout ∧
        decode v = v.require v.layout.size (ofView v) := by
  cases hbare : v.kind?.bind Kind.layout? with
  | none => exact .inl ⟨decode_of_bare hbare, rfl⟩
  | some l =>
    obtain ⟨kind, hkind, hlayout⟩ := Option.bind_eq_some_iff.mp hbare
    have hl : l = v.layout := by rw [RecordView.layout, hbare, Option.getD_some]
    exact .inr ⟨kind, hkind, hl ▸ hlayout, decode_eq_require hkind (hl ▸ hlayout)⟩

theorem decode_of_layout_le (h : v.layout.size ≤ v.size) : decode v = .ok (ofView v) := by
  obtain ⟨hread, -⟩ | ⟨kind, -, -, hrequire⟩ := decode_cases v
  · exact hread
  · rw [hrequire, RecordView.require_of_le h]

theorem eq_ofView_of_decode (h : decode v = .ok r) : r = ofView v := by
  obtain ⟨hread, -⟩ | ⟨kind, -, -, hrequire⟩ := decode_cases v
  · exact Except.ok.inj (h.symm.trans hread)
  · exact (RecordView.require_eq_ok_iff.mp (hrequire ▸ h)).2.symm

/-- Only a view that is shorter than the layout of its kind is refused. -/
theorem decode_eq_error_iff {e : TraceError} :
    decode v = .error e ↔ ∃ kind l, v.kind? = some kind ∧ kind.layout? = some l ∧
      v.size < l.size ∧ e = .truncated kind.label v.size l.size := by
  constructor
  · intro h
    obtain ⟨hread, -⟩ | ⟨kind, hkind, hlayout, hrequire⟩ := decode_cases v
    · cases h.symm.trans hread
    · exact ⟨kind, v.layout, hkind, hlayout,
        (RecordView.require_eq_error_iff hkind).mp (hrequire ▸ h)⟩
  · rintro ⟨kind, l, hkind, hlayout, herror⟩
    rw [decode_eq_require hkind hlayout]
    exact (RecordView.require_eq_error_iff hkind).mpr herror

theorem tag_ofView (v : RecordView) : (ofView v).tag = v.tag := by
  unfold ofView
  cases hkind : v.kind? with
  | none => rfl
  | some kind =>
    rw [← Kind.code_of_ofCode? hkind]
    cases kind
    case memcpy | memcpy2 => simp [tag, Copy.ofView, hkind]
    case kernel | concurrentKernel => simp [tag, Launch.ofView, hkind]
    all_goals rfl

theorem layout_ofView (v : RecordView) : (ofView v).layout = v.layout := by
  unfold ofView
  cases hkind : v.kind? with
  | none => rw [RecordView.layout, hkind]; rfl
  | some kind =>
    rw [RecordView.layout_eq hkind]
    cases kind
    case memcpy | memcpy2 => simp [layout, Copy.ofView, hkind, Kind.layout?]
    all_goals rfl

/-- The record is of a shape that its kind is decoded to: not another shape's kind or tag, and no
count of a transfer. -/
def Readable : Record → Prop
  | .other kind => kind.layout? = none
  | .unknown tag => 44 < tag
  | .memoryCounter (.count kind _) =>
    kind ≠ .hostToDevice ∧ kind ≠ .deviceToHost ∧ kind ≠ .deviceToDevice
  | _ => True

theorem readable_ofView (v : RecordView) : (ofView v).Readable := by
  unfold ofView
  cases hkind : v.kind? with
  | none => exact (Kind.ofCode?_eq_none_iff v.tag).mp hkind
  | some kind =>
    cases kind
    case unifiedMemoryCounter =>
      unfold MemoryCounter.ofView
      cases (Coded.ofCode (v.uint32At 8).toNat : CounterKind) <;> simp [Readable]
    all_goals first | exact trivial | rfl

/-- A record is read from the numbers in the fields of the layout alone. -/
theorem ofView_congr (htag : w.tag = v.tag)
    (hwords : ∀ f ∈ v.layout.fields, w.wordIn f = v.wordIn f) : ofView w = ofView v := by
  have hkind : w.kind? = v.kind? := congrArg Kind.ofCode? htag
  unfold ofView
  rw [hkind, htag]
  cases hv : v.kind? with
  | none => rfl
  | some kind =>
    rw [hv] at hkind
    rw [RecordView.layout_eq hv] at hwords
    cases kind
    case memcpy | memcpy2 =>
      simp only [Kind.layout?, Option.getD_some, Layout.copy, Layout.peerCopy,
        List.forall_mem_append, List.forall_mem_cons] at hwords
      simp [Copy.ofView, hwords, hv, hkind]
    case kernel | concurrentKernel =>
      simp only [Kind.layout?, Option.getD_some, Layout.launch, List.forall_mem_cons] at hwords
      simp [Launch.ofView, hwords, hv, hkind]
    case driver | runtime =>
      simp only [Kind.layout?, Option.getD_some, Layout.apiCall, List.forall_mem_cons] at hwords
      simp [ApiCall.ofView, hwords]
    case context =>
      simp only [Kind.layout?, Option.getD_some, Layout.contextMark, List.forall_mem_cons] at hwords
      simp [ContextMark.ofView, hwords]
    case overhead =>
      simp only [Kind.layout?, Option.getD_some, Layout.overhead, List.forall_mem_cons] at hwords
      simp [Overhead.ofView, hwords]
    case externalCorrelation =>
      simp only [Kind.layout?, Option.getD_some, Layout.hostLink, List.forall_mem_cons] at hwords
      simp [HostLink.ofView, hwords]
    case unifiedMemoryCounter =>
      simp only [Kind.layout?, Option.getD_some, Layout.memoryCounter,
        List.forall_mem_cons] at hwords
      simp [MemoryCounter.ofView, MemoryTransfer.ofView, hwords]
    case sourceLocator =>
      simp only [Kind.layout?, Option.getD_some, Layout.sourceLocator,
        List.forall_mem_cons] at hwords
      simp [SourceLocator.ofView, hwords]
    case function =>
      simp only [Kind.layout?, Option.getD_some, Layout.function, List.forall_mem_cons] at hwords
      simp [KernelFunction.ofView, hwords]
    case pcSampling =>
      simp only [Kind.layout?, Option.getD_some, Layout.sample, List.forall_mem_cons] at hwords
      simp [CounterSample.ofView, hwords]
    case pcSamplingRecordInfo =>
      simp only [Kind.layout?, Option.getD_some, Layout.sampleTotals,
        List.forall_mem_cons] at hwords
      simp [SampleTotals.ofView, hwords]
    all_goals rfl

/-- A view with the tag of a record and its numbers reads as the record. -/
theorem ofView_of_entries (hr : r.Readable) (htag : v.tag = r.tag)
    (hwords : ∀ e ∈ r.entries, v.wordIn e.field = e.value) : ofView v = r := by
  cases r with
  | copy c =>
    rcases c with ⟨_, _, _, isAsync, _, _, _, _, _, _, _, _ | peers⟩
    case none =>
      have hkind : v.kind? = some .memcpy := RecordView.kind?_of_tag htag
      simp only [entries, List.append_nil, List.forall_mem_cons, Entry.uint8, Entry.uint32,
        Entry.uint64] at hwords
      cases isAsync <;> simp [ofView, hkind, Copy.ofView, hwords, Copy.asyncFlag]
    case some =>
      have hkind : v.kind? = some .memcpy2 := RecordView.kind?_of_tag htag
      simp only [entries, List.forall_mem_append, List.forall_mem_cons, Entry.uint8, Entry.uint32,
        Entry.uint64] at hwords
      cases isAsync <;> simp [ofView, hkind, Copy.ofView, hwords, Copy.asyncFlag]
  | launch l =>
    simp only [entries, List.forall_mem_cons, Entry.int32, Entry.uint32, Entry.uint64] at hwords
    rcases l with ⟨_ | _, _⟩
    case false =>
      have hkind : v.kind? = some .kernel := RecordView.kind?_of_tag htag
      simp [ofView, hkind, Launch.ofView, hwords]
    case true =>
      have hkind : v.kind? = some .concurrentKernel := RecordView.kind?_of_tag htag
      simp [ofView, hkind, Launch.ofView, hwords]
  | driverCall c =>
    have hkind : v.kind? = some .driver := RecordView.kind?_of_tag htag
    simp only [entries, List.forall_mem_cons, Entry.uint32, Entry.uint64] at hwords
    simp [ofView, hkind, ApiCall.ofView, hwords]
  | runtimeCall c =>
    have hkind : v.kind? = some .runtime := RecordView.kind?_of_tag htag
    simp only [entries, List.forall_mem_cons, Entry.uint32, Entry.uint64] at hwords
    simp [ofView, hkind, ApiCall.ofView, hwords]
  | contextMark m =>
    have hkind : v.kind? = some .context := RecordView.kind?_of_tag htag
    simp only [entries, List.forall_mem_cons, Entry.uint32, Entry.uint16] at hwords
    simp [ofView, hkind, ContextMark.ofView, hwords]
  | overhead o =>
    have hkind : v.kind? = some .overhead := RecordView.kind?_of_tag htag
    simp only [entries, List.forall_mem_cons, Entry.uint32, Entry.uint64] at hwords
    simp [ofView, hkind, Overhead.ofView, hwords]
  | hostLink l =>
    have hkind : v.kind? = some .externalCorrelation := RecordView.kind?_of_tag htag
    simp only [entries, List.forall_mem_cons, Entry.uint32, Entry.uint64] at hwords
    simp [ofView, hkind, HostLink.ofView, hwords]
  | memoryCounter c =>
    have hkind : v.kind? = some .unifiedMemoryCounter := RecordView.kind?_of_tag htag
    simp only [entries, List.forall_mem_cons, Entry.uint32, Entry.uint64] at hwords
    cases c with
    | count kind value =>
      simp only [ofView, hkind, MemoryCounter.ofView, RecordView.uint32At_eq, hwords]
      cases kind <;> simp_all [Readable, MemoryCounter.kind]
    | hostToDevice | deviceToHost | deviceToDevice =>
      simp only [List.forall_mem_cons] at hwords
      simp [ofView, hkind, MemoryCounter.ofView, MemoryCounter.kind, MemoryTransfer.ofView, hwords]
  | sourceLocator l =>
    have hkind : v.kind? = some .sourceLocator := RecordView.kind?_of_tag htag
    simp only [entries, List.forall_mem_cons, Entry.uint32] at hwords
    simp [ofView, hkind, SourceLocator.ofView, hwords]
  | function f =>
    have hkind : v.kind? = some .function := RecordView.kind?_of_tag htag
    simp only [entries, List.forall_mem_cons, Entry.uint32] at hwords
    simp [ofView, hkind, KernelFunction.ofView, hwords]
  | sample s =>
    have hkind : v.kind? = some .pcSampling := RecordView.kind?_of_tag htag
    simp only [entries, List.forall_mem_cons, Entry.uint32] at hwords
    simp [ofView, hkind, CounterSample.ofView, hwords]
  | sampleTotals t =>
    have hkind : v.kind? = some .pcSamplingRecordInfo := RecordView.kind?_of_tag htag
    simp only [entries, List.forall_mem_cons, Entry.uint32, Entry.uint64] at hwords
    simp [ofView, hkind, SampleTotals.ofView, hwords]
  | other kind =>
    have hkind : v.kind? = some kind := RecordView.kind?_of_tag htag
    unfold ofView
    rw [hkind]
    cases kind <;> first | rfl | cases hr
  | unknown tag =>
    have htag : v.tag = tag := htag
    have hkind : v.kind? = none :=
      (Kind.ofCode?_eq_none_iff v.tag).mpr (htag ▸ hr)
    simp [ofView, hkind, htag]

end Record
end DeviceTrace
