import DeviceTrace.Proofs.Record.RoundTrip
import DeviceTrace.Proofs.Stream.Spans

/-!
# Marks too short for their layout

A decoder asks a mark for room before it reads from it, and refuses one of less than 24 bytes. The
spans and the readers do not ask. They read both ids from any mark: the same ids as a decoder from a
mark that has room, the ids that are there from one of 16 bytes, and zeros from a mark that is a
bare header. The records after such a mark go to device 0, which it does not name, without an error.
-/

namespace DeviceTrace

/-- The four bytes at the offset lie in the record and are those of the id. -/
def RecordView.Holds (v : RecordView) (offset : Nat) (id : UInt32) : Prop :=
  v.bytes.slice offset (offset + 4) = Bytes.ofNatLE 4 id.toNat

instance (v : RecordView) (offset : Nat) (id : UInt32) : Decidable (v.Holds offset id) :=
  inferInstanceAs (Decidable (_ = _))

/-! ## Ids in a record -/

namespace RecordView

variable {v : RecordView} {offset : Nat} {id : UInt32}

theorem size_of_holds (h : v.Holds offset id) : offset + 4 ≤ v.size := by
  have hlength := congrArg List.length h
  rw [Bytes.slice, List.length_take, List.length_drop, Bytes.length_ofNatLE] at hlength
  rw [size]
  omega

theorem holds_uint32At (h : offset + 4 ≤ v.size) : v.Holds offset (v.uint32At offset) := by
  have hlength : (v.bytes.slice offset (offset + 4)).length = 4 := by
    rw [Bytes.length_slice h, Nat.add_sub_cancel_left]
  have hword : (v.uint32At offset).toNat = (v.bytes.slice offset (offset + 4)).toNatLE := by
    have hlt := Bytes.toNatLE_lt (v.bytes.slice offset (offset + 4))
    rw [hlength] at hlt
    rw [uint32At, Bytes.wordAt, ← size, if_pos h]
    exact UInt32.toNat_ofNat_of_lt hlt
  have hbytes := Bytes.ofNatLE_toNatLE (v.bytes.slice offset (offset + 4))
  rw [hlength, ← hword] at hbytes
  exact hbytes.symm

theorem kind?_of_isMark (h : v.isMark) : v.kind? = some .context := by
  simpa [isMark] using h

theorem uint32At_of_size_lt (h : v.size < offset + 4) : v.uint32At offset = 0 := by
  rw [uint32At, Bytes.wordAt, ← size, if_neg (Nat.not_le_of_lt h)]
  rfl

end RecordView

/-! ## The segment of a mark -/

section
variable {views : List RecordView} {mark : RecordView}

theorem exists_segment_of_isMark (hmem : mark ∈ views) (hmark : mark.isMark) :
    ∃ segment ∈ segments views, segment.head? = some mark := by
  obtain ⟨k, hk⟩ := List.mem_iff_getElem?.mp hmem
  obtain ⟨segment, hsegment, hin, -⟩ := exists_segment hk
  exact ⟨segment, hsegment, head?_of_isMark hsegment hin hmark⟩

theorem segmentMark_eq_some_iff {segment : List RecordView} :
    segmentMark segment = some mark ↔ segment.head? = some mark ∧ mark.isMark := by
  rw [segmentMark, Option.filter_eq_some_iff]

end

section
variable {bytes : Bytes} {segment other : List RecordView} {view mark : RecordView}

/-- No two segments have a record in common. -/
theorem segment_eq_of_mem (h : segment ∈ segments (records bytes))
    (hother : other ∈ segments (records bytes)) (hview : view ∈ segment) (hview' : view ∈ other) :
    other = segment := by
  have hmem : view ∈ records bytes := mem_of_mem_segments h hview
  have hpos := ((laidOut_records bytes).bounds hmem).2.1
  have hspan := (tile_spans bytes).eq_of_covers hpos (mem_spans.mpr ⟨segment, h, rfl⟩)
    (mem_spans.mpr ⟨other, hother, rfl⟩) ((covers_iff_mem h hmem).mpr hview)
    ((covers_iff_mem hother hmem).mpr hview')
  rw [← filter_covers hother, hspan, filter_covers h]

/-- A mark opens one span, and this covers the records that it is the latest mark of. -/
theorem covers_iff_latestMark? (h : segment ∈ segments (records bytes))
    (hhead : segment.head? = some mark) (hmark : mark.isMark) {k : Nat}
    (hview : (records bytes)[k]? = some view) :
    (segmentSpan segment).covers view ↔ latestMark? (records bytes) k = some mark := by
  obtain ⟨other, hother, hin, hlatest⟩ := exists_segment hview
  rw [covers_iff_mem h (List.mem_of_getElem? hview), ← hlatest, segmentMark_eq_some_iff]
  constructor
  · intro hview
    rw [segment_eq_of_mem hother h hin hview] at hhead
    exact ⟨hhead, hmark⟩
  · rintro ⟨hhead', -⟩
    rwa [← segment_eq_of_mem h hother (List.mem_of_head? hhead) (List.mem_of_head? hhead')]

end

/-! ## What a mark is read as -/

/-- A decoder reads the ids of a mark where the spans read them, but only if there is room. -/
theorem decode_mark {mark : RecordView} (h : mark.isMark) :
    Record.decode mark = mark.require 24 (.contextMark (.ofView mark)) := by
  have hkind := RecordView.kind?_of_isMark h
  have hread : Record.ofView mark = .contextMark (.ofView mark) := by rw [Record.ofView, hkind]
  rw [Record.decode_eq_require hkind rfl, hread]
  rfl

theorem decode_short_mark {mark : RecordView} (h : mark.isMark) (hshort : mark.size < 24) :
    Record.decode mark = .error (.truncated "Context" mark.size 24) := by
  rw [decode_mark h, RecordView.require_eq_error_iff (RecordView.kind?_of_isMark h)]
  exact ⟨hshort, rfl⟩

/-- Let a mark lie in a stream, however the stream ends. One span starts at the mark, and it covers
the records that have the mark for their latest one; a reader tells of each of them the context of
the span. If the mark has room for its layout, it can be decoded, and the ids are those that it
holds. A mark of 16 bytes holds the ids as well, but cannot be decoded. A mark that is a bare header
cannot be decoded either and holds no ids, and its span is one of device 0 and context 0. -/
theorem spans_of_marks (bytes : Bytes) {mark : RecordView} (hmem : mark ∈ records bytes)
    (hmark : mark.isMark) :
    let views := records bytes
    let answers := ({} : ContextReader).readAll bytes bytes.length (views.map RecordView.cursor)
    ∃ span ∈ spans bytes, span.start = mark.offset ∧
      (∀ other ∈ spans bytes, other.start = mark.offset → other = span) ∧
      (∀ k, ∀ view ∈ views[k]?, (span.covers view ↔ latestMark? views k = some mark) ∧
        (span.covers view → answers[k]? = some (some (view, span.context.toUInt64)))) ∧
      (24 ≤ mark.size ∧
          (∃ m, Record.decode mark = .ok (.contextMark m) ∧
            m.device = span.device ∧ m.context = span.context) ∧
          mark.Holds 12 span.device ∧ mark.Holds 8 span.context ∨
        mark.size = 16 ∧ Record.decode mark = .error (.truncated "Context" 16 24) ∧
          mark.Holds 12 span.device ∧ mark.Holds 8 span.context ∨
        mark.size = 8 ∧ Record.decode mark = .error (.truncated "Context" 8 24) ∧
          span.device = 0 ∧ span.context = 0 ∧ ∀ id, ¬ mark.Holds 12 id ∧ ¬ mark.Holds 8 id) := by
  intro views answers
  obtain ⟨segment, hsegment, hhead⟩ := exists_segment_of_isMark hmem hmark
  have hspan : segmentSpan segment ∈ spans bytes := mem_spans.mpr ⟨segment, hsegment, rfl⟩
  have hopens : segmentMark segment = some mark := segmentMark_eq_some_iff.mpr ⟨hhead, hmark⟩
  have hdevice : (segmentSpan segment).device = mark.uint32At 12 := by
    rw [segmentSpan, hopens]; rfl
  have hcontext : (segmentSpan segment).context = mark.uint32At 8 := by
    rw [segmentSpan, hopens]; rfl
  refine ⟨segmentSpan segment, hspan, segmentSpan_start hhead, ?only, ?under, ?size⟩
  case only =>
    intro other hother hstart
    exact (tile_spans bytes).eq_of_start hspan hother (by rw [hstart, segmentSpan_start hhead])
  case under =>
    intro k view hview
    have hlatest := covers_iff_latestMark? hsegment hhead hmark hview
    refine ⟨hlatest, fun hcovers => ?_⟩
    rw [getElem?_readAll, hview, Option.map_some, hlatest.mp hcovers, segmentSpan, hopens]
  case size =>
    obtain ⟨hheader, haligned, -⟩ := isRecord_of_mem_records hmem
    rw [hdevice, hcontext]
    -- sizes are multiples of 8, and a header is always there
    have hsizes : 24 ≤ mark.size ∨ mark.size = 16 ∨ mark.size = 8 := by
      simp only [headerSize, recordAlign, RecordView.size] at *
      omega
    rcases hsizes with hroom | hsize | hsize
    · refine .inl ⟨hroom, ⟨.ofView mark, ?_, rfl, rfl⟩, RecordView.holds_uint32At (by omega),
        RecordView.holds_uint32At (by omega)⟩
      rw [decode_mark hmark, RecordView.require_of_le hroom]
    · have herror := decode_short_mark hmark (by omega)
      rw [hsize] at herror
      exact .inr (.inl ⟨hsize, herror, RecordView.holds_uint32At (by omega),
        RecordView.holds_uint32At (by omega)⟩)
    · have herror := decode_short_mark hmark (by omega)
      rw [hsize] at herror
      refine .inr (.inr ⟨hsize, herror, RecordView.uint32At_of_size_lt (by omega),
        RecordView.uint32At_of_size_lt (by omega), fun id => ⟨fun h => ?_, fun h => ?_⟩⟩)
      all_goals
        have hroom := RecordView.size_of_holds h
        omega

/-! A mark of device 1, then a mark that is a bare header, then a kernel. -/

def bareMark : RecordView := ⟨24, (Record.other .context).encode⟩

def bareMarkStream : Bytes :=
  [.contextMark ⟨7, 1, 0, 0⟩, .other .context, .other .kernel].flatMap Record.encode

theorem bareMark_mem : bareMark ∈ records bareMarkStream := by
  rw [bareMarkStream, (Record.splits_flatMap_encode _).records_eq]
  decide

theorem spans_of_marks_bare : bareMark ∈ records bareMarkStream ∧ bareMark.isMark ∧
    ∃ span ∈ spans bareMarkStream, span.start = 24 ∧ span.device = 0 ∧ span.context = 0 := by
  have hmark : bareMark.isMark := by decide
  obtain ⟨span, hspan, hstart, -, -, ⟨hroom, -⟩ | ⟨hsize, -⟩ | ⟨-, -, hdevice, hcontext, -⟩⟩ :=
    spans_of_marks bareMarkStream bareMark_mem hmark
  · exact absurd hroom (by decide)
  · exact absurd hsize (by decide)
  · exact ⟨bareMark_mem, hmark, span, hspan, hstart, hdevice, hcontext⟩

/-- The walk over the stream ends without an error, although one of its marks cannot be decoded, and
the kernel behind this mark goes to device 0. No mark of the stream names that device. -/
theorem bare_mark_misleads :
    walkError bareMarkStream = none ∧
      bareMark ∈ records bareMarkStream ∧ bareMark.isMark ∧
      Record.decode bareMark = .error (.truncated "Context" 8 24) ∧
      ∃ span ∈ spans bareMarkStream, span.start = bareMark.offset ∧ span.device = 0 ∧
        (∃ view ∈ records bareMarkStream, bareMark.offset < view.offset ∧ span.covers view ∧
          view.kind? = some .kernel) ∧
        ∀ mark ∈ records bareMarkStream, mark.isMark → ¬ mark.Holds 12 span.device := by
  have hsplits := Record.splits_flatMap_encode
    [.contextMark ⟨7, 1, 0, 0⟩, .other .context, .other .kernel]
  rw [bareMarkStream, spans, hsplits.position_eq, hsplits.walkError_eq, hsplits.records_eq]
  decide

end DeviceTrace
