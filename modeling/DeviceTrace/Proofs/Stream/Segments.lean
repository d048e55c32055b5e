import DeviceTrace.Proofs.Stream.Walk
import DeviceTrace.Stream.Span
import Mathlib.Data.List.SplitBy

/-!
# Spans as runs of records

A context mark begins a new segment of the records of a stream, and every other record goes on with
the segment that is open. The spans of a stream are the extents of its segments, and the bytes of a
span, walked on their own, are again the records of its segment.
-/

namespace DeviceTrace

def RecordView.isMark (v : RecordView) : Bool := v.kind? = some .context

/-- Whether `v` belongs to the segment of the record before it. -/
def RecordView.continues (_ v : RecordView) : Bool := !v.isMark

def segments (views : List RecordView) : List (List RecordView) :=
  views.splitBy RecordView.continues

/-- The mark that opens a segment, none if the segment begins before the first mark. -/
def segmentMark (segment : List RecordView) : Option RecordView :=
  segment.head?.filter RecordView.isMark

/-- The device that a mark names, and device 0 as long as there is no mark. -/
def markedDevice (mark : Option RecordView) : DeviceId := mark.elim 0 ContextMark.deviceOf

def markedContext (mark : Option RecordView) : ContextId := mark.elim 0 ContextMark.contextOf

def segmentBytes (segment : List RecordView) : Bytes := segment.flatMap RecordView.bytes

/-- Where a segment lies in its stream, and what it belongs to. -/
def segmentSpan (segment : List RecordView) : Span where
  device := markedDevice (segmentMark segment)
  context := markedContext (segmentMark segment)
  start := (segment.head?.map RecordView.offset).getD 0
  stop := (segment.head?.map RecordView.offset).getD 0 + (segmentBytes segment).length

/-- Every record with the latest mark at or before it, where `mark` comes before them all. -/
def underMarks (mark : Option RecordView) : List RecordView → List (Option RecordView × RecordView)
  | [] => []
  | v :: views =>
    let mark := if v.isMark then some v else mark
    (mark, v) :: underMarks mark views

/-! ## Segments -/

theorem segments_chain {segment : List RecordView} (hne : segment ≠ [])
    (hchain : segment.IsChain (RecordView.continues · ·)) : segments segment = [segment] :=
  List.splitBy_of_isChain hne hchain

theorem segments_append_mark {segment : List RecordView} (hne : segment ≠ [])
    (hchain : segment.IsChain (RecordView.continues · ·)) {mark : RecordView} (h : mark.isMark)
    (views : List RecordView) :
    segments (segment ++ mark :: views) = segment :: segments (mark :: views) := by
  have hbreak : ∀ v ∈ segment.getLast?, v.continues mark = false := by
    simp [RecordView.continues, h]
  rw [segments, List.splitBy_append_cons views hbreak, List.splitBy_of_isChain hne hchain]
  rfl

/-- What holds of the records after an open segment, told by whether the segment is closed by the
end, closed by a mark or goes on. -/
theorem segments_induction {motive : List RecordView → List RecordView → Prop}
    (last : ∀ segment, segment ≠ [] → segments segment = [segment] → motive segment [])
    (mark : ∀ segment mark views, segment ≠ [] → mark.isMark →
      segments (segment ++ mark :: views) = segment :: segments ([mark] ++ views) →
      motive [mark] views → motive segment (mark :: views))
    (next : ∀ segment v views, segment ≠ [] → v.isMark = false →
      motive (segment ++ [v]) views → motive segment (v :: views))
    (segment views : List RecordView) (hne : segment ≠ [])
    (hchain : segment.IsChain (RecordView.continues · ·)) : motive segment views := by
  induction views generalizing segment with
  | nil => exact last segment hne (segments_chain hne hchain)
  | cons v views ih =>
    cases hv : v.isMark with
    | true =>
      exact mark segment v views hne hv (segments_append_mark hne hchain hv views)
        (ih [v] (by simp) (by simp))
    | false =>
      have hchain' : (segment ++ [v]).IsChain (RecordView.continues · ·) := by
        rw [List.isChain_append]
        exact ⟨hchain, by simp, by simp [RecordView.continues, hv]⟩
      exact next segment v views hne hv (ih (segment ++ [v]) (by simp) hchain')

theorem segmentMark_append {segment : List RecordView} (hne : segment ≠ [])
    (views : List RecordView) : segmentMark (segment ++ views) = segmentMark segment := by
  cases segment with
  | nil => contradiction
  | cons v segment => rfl

theorem segmentMark_singleton (v : RecordView) :
    segmentMark [v] = if v.isMark then some v else none := rfl

theorem underMarks_of_segment (segment views : List RecordView) (hne : segment ≠ [])
    (hchain : segment.IsChain (RecordView.continues · ·)) :
    (segments (segment ++ views)).flatMap (fun s => s.map (segmentMark s, ·)) =
      segment.map (segmentMark segment, ·) ++ underMarks (segmentMark segment) views := by
  refine segments_induction (motive := fun segment views =>
    (segments (segment ++ views)).flatMap (fun s => s.map (segmentMark s, ·)) =
      segment.map (segmentMark segment, ·) ++ underMarks (segmentMark segment) views)
    ?last ?mark ?next segment views hne hchain
  case last =>
    intro segment _ hsegments
    simp [hsegments, underMarks]
  case mark =>
    intro segment mark views _ hmark hsegments ih
    rw [hsegments, List.flatMap_cons, ih]
    simp [underMarks, segmentMark_singleton, hmark]
  case next =>
    intro segment v views hne hv ih
    simpa [segmentMark_append hne, underMarks, hv] using ih

/-- The records of all segments are those of the stream, and the mark that opens a segment is the
latest one for each of its records. -/
theorem flatMap_segments (views : List RecordView) :
    (segments views).flatMap (fun s => s.map (segmentMark s, ·)) = underMarks none views := by
  cases views with
  | nil => simp [segments, underMarks]
  | cons v views =>
    simpa [underMarks, segmentMark_singleton] using
      underMarks_of_segment [v] views (by simp) (by simp)

/-! ## Spans -/

/-- Records that lie one after the other from an offset on. -/
def LaidOut : Nat → List RecordView → Prop
  | _, [] => True
  | offset, v :: views => v.offset = offset ∧ 0 < v.size ∧ LaidOut v.stop views

theorem laidOut_viewsAt {chunks : List Bytes} (h : ∀ bytes ∈ chunks, Bytes.IsRecord bytes)
    (offset : Nat) : LaidOut offset (viewsAt offset chunks) := by
  induction chunks generalizing offset with
  | nil => trivial
  | cons bytes chunks ih =>
    exact ⟨rfl, (h bytes (by simp)).length_pos, ih (fun b hb => h b (by simp [hb])) _⟩

theorem laidOut_append {offset : Nat} {front views : List RecordView} :
    LaidOut offset (front ++ views) ↔
      LaidOut offset front ∧ LaidOut (offset + (segmentBytes front).length) views := by
  induction front generalizing offset with
  | nil => simp [LaidOut, segmentBytes]
  | cons v front ih =>
    simp only [List.cons_append, LaidOut, ih, segmentBytes, List.flatMap_cons, List.length_append]
    constructor
    · rintro ⟨rfl, hpos, hfront, hviews⟩
      exact ⟨⟨rfl, hpos, hfront⟩,
        by simpa [RecordView.stop, RecordView.size, Nat.add_assoc] using hviews⟩
    · rintro ⟨⟨rfl, hpos, hfront⟩, hviews⟩
      exact ⟨rfl, hpos, hfront,
        by simpa [RecordView.stop, RecordView.size, Nat.add_assoc] using hviews⟩

theorem segmentBytes_length_pos {offset : Nat} {segment : List RecordView} (hne : segment ≠ [])
    (h : LaidOut offset segment) : 0 < (segmentBytes segment).length := by
  cases segment with
  | nil => contradiction
  | cons v segment =>
    have hpos : 0 < v.bytes.length := h.2.1
    simp only [segmentBytes, List.flatMap_cons, List.length_append]
    omega

theorem segmentSpan_laidOut {offset : Nat} {segment : List RecordView} (hne : segment ≠ [])
    (h : LaidOut offset segment) :
    segmentSpan segment =
      ⟨markedDevice (segmentMark segment), markedContext (segmentMark segment), offset,
        offset + (segmentBytes segment).length⟩ := by
  cases segment with
  | nil => contradiction
  | cons v segment => simp [segmentSpan, h.1]

/-- The span of a segment from `offset` on that is still open. -/
def openSpan (segment : List RecordView) (offset : Nat) : Span :=
  ⟨markedDevice (segmentMark segment), markedContext (segmentMark segment), offset, offset⟩

theorem opened_eq_openSpan {mark : RecordView} (h : mark.isMark) :
    Span.opened mark = openSpan [mark] mark.offset := by
  simp [Span.opened, openSpan, segmentMark_singleton, h, markedDevice, markedContext]

/-- The spans that `spansFrom` finds when it has passed the records of an open segment. -/
theorem spansFrom_of_segment (segment views : List RecordView) (hne : segment ≠ [])
    (hchain : segment.IsChain (RecordView.continues · ·)) (offset stop : Nat)
    (hlaid : LaidOut offset (segment ++ views))
    (hend : offset + (segmentBytes (segment ++ views)).length = stop) :
    spansFrom stop (openSpan segment offset) views =
      (segments (segment ++ views)).map segmentSpan := by
  revert offset
  refine segments_induction (motive := fun segment views => ∀ offset,
    LaidOut offset (segment ++ views) →
    offset + (segmentBytes (segment ++ views)).length = stop →
    spansFrom stop (openSpan segment offset) views =
      (segments (segment ++ views)).map segmentSpan) ?last ?mark ?next segment views hne hchain
  case last =>
    intro segment hne hsegments offset hlaid hend
    rw [List.append_nil] at hlaid hend ⊢
    have hpos := segmentBytes_length_pos hne hlaid
    simp [spansFrom, openSpan, Span.closedAt, hsegments, segmentSpan_laidOut hne hlaid, ← hend,
      hpos]
  case mark =>
    intro segment mark views hne hmark hsegments ih offset hlaid hend
    obtain ⟨hsegment, hviews⟩ := laidOut_append.mp hlaid
    have hpos := segmentBytes_length_pos hne hsegment
    have hoffset : mark.offset = offset + (segmentBytes segment).length := hviews.1
    have hrest := ih mark.offset (by simpa [hoffset] using hviews)
      (by simpa [hoffset, segmentBytes, Nat.add_assoc] using hend)
    rw [spansFrom, if_pos (by simpa [RecordView.isMark] using hmark), opened_eq_openSpan hmark,
      hrest, hsegments]
    simp [openSpan, Span.closedAt, segmentSpan_laidOut hne hsegment, hoffset, hpos]
  case next =>
    intro segment v views hne hv ih offset hlaid hend
    have hrest := ih offset (by simpa using hlaid) (by simpa using hend)
    rw [openSpan, segmentMark_append hne, ← openSpan] at hrest
    rw [spansFrom, if_neg (by simpa [RecordView.isMark] using hv), hrest]
    simp

theorem laidOut_records (bytes : Bytes) : LaidOut 0 (records bytes) := by
  obtain ⟨chunks, rest, h⟩ := bytes.exists_splits
  rw [h.records_eq]
  exact laidOut_viewsAt h.records 0

/-- A stream is the bytes of its records and a rest that the walk does not reach. -/
theorem exists_segmentBytes_append (bytes : Bytes) :
    ∃ rest, bytes = segmentBytes (records bytes) ++ rest ∧
      (recordsEnd bytes).position = (segmentBytes (records bytes)).length := by
  obtain ⟨chunks, rest, h⟩ := bytes.exists_splits
  have hbytes : segmentBytes (records bytes) = chunks.flatten := by
    rw [h.records_eq, segmentBytes, List.flatMap_def, map_bytes_viewsAt]
  exact ⟨rest, by rw [hbytes]; exact h.append, by rw [hbytes]; exact h.position_eq⟩

/-- The spans of a stream are the extents of its segments. -/
theorem spans_eq_segments (bytes : Bytes) :
    spans bytes = (segments (records bytes)).map segmentSpan := by
  obtain ⟨rest, -, hposition⟩ := exists_segmentBytes_append bytes
  have hlaid := laidOut_records bytes
  rw [spans, hposition]
  cases hviews : records bytes with
  | nil => simp [spansFrom, Span.closedAt, segments, segmentBytes]
  | cons v views =>
    rw [hviews] at hlaid
    have hspans := spansFrom_of_segment [v] views (by simp) (by simp) 0
      (segmentBytes (v :: views)).length hlaid (by simp)
    rw [List.singleton_append] at hspans
    rw [← hspans, spansFrom]
    cases hv : v.isMark with
    | true =>
      rw [if_pos (by simpa [RecordView.isMark] using hv), opened_eq_openSpan hv, hlaid.1]
      simp [Span.closedAt]
    | false =>
      rw [if_neg (by simpa [RecordView.isMark] using hv)]
      simp [openSpan, segmentMark_singleton, hv, markedDevice, markedContext]

/-! ## The bytes of a span -/

theorem append_of_mem_segments {segment views : List RecordView} (h : segment ∈ segments views) :
    segment ≠ [] ∧ ∃ front back, views = front ++ (segment ++ back) := by
  refine ⟨List.ne_nil_of_mem_splitBy h, ?_⟩
  obtain ⟨before, after, hsegments⟩ := List.append_of_mem h
  refine ⟨before.flatten, after.flatten, ?_⟩
  have hflatten : (segments views).flatten = views := List.flatten_splitBy _ views
  rw [← hflatten, hsegments]
  simp

theorem segmentBytes_length_pos_of_mem {bytes : Bytes} {segment : List RecordView}
    (h : segment ∈ segments (records bytes)) : 0 < (segmentBytes segment).length := by
  obtain ⟨hne, front, back, hviews⟩ := append_of_mem_segments h
  have hlaid := laidOut_records bytes
  rw [hviews] at hlaid
  exact segmentBytes_length_pos hne (laidOut_append.mp (laidOut_append.mp hlaid).2).1

theorem slice_segmentSpan {bytes : Bytes} {segment : List RecordView}
    (h : segment ∈ segments (records bytes)) :
    bytes.slice (segmentSpan segment).start (segmentSpan segment).stop = segmentBytes segment := by
  obtain ⟨hne, front, back, hviews⟩ := append_of_mem_segments h
  obtain ⟨rest, happend, -⟩ := exists_segmentBytes_append bytes
  have hlaid := laidOut_records bytes
  rw [hviews] at hlaid happend
  obtain ⟨-, hlaid⟩ := laidOut_append.mp hlaid
  obtain ⟨hsegment, -⟩ := laidOut_append.mp hlaid
  have happend' : bytes = segmentBytes front ++ (segmentBytes segment ++
      (segmentBytes back ++ rest)) := by
    rw [happend]
    simp [segmentBytes]
  rw [segmentSpan_laidOut hne hsegment, Bytes.slice, happend']
  simp

theorem isRecord_of_mem_records {bytes : Bytes} {view : RecordView} (h : view ∈ records bytes) :
    view.bytes.IsRecord := by
  obtain ⟨chunks, rest, hsplits⟩ := bytes.exists_splits
  rw [hsplits.records_eq] at h
  have hmem := List.mem_map_of_mem (f := RecordView.bytes) h
  rw [map_bytes_viewsAt] at hmem
  exact hsplits.records _ hmem

/-- Walked on its own, a segment gives its records back and ends where its bytes end. -/
theorem walk_segmentBytes {bytes : Bytes} {segment : List RecordView}
    (h : segment ∈ segments (records bytes)) :
    (records (segmentBytes segment)).map RecordView.bytes = segment.map RecordView.bytes ∧
      (recordsEnd (segmentBytes segment)).position = (segmentBytes segment).length ∧
      walkError (segmentBytes segment) = none := by
  obtain ⟨-, front, back, hviews⟩ := append_of_mem_segments h
  have hrecord : ∀ b ∈ segment.map RecordView.bytes, Bytes.IsRecord b := by
    simp only [List.mem_map, forall_exists_index, and_imp, forall_apply_eq_imp_iff₂]
    intro view hview
    have hmem : view ∈ records bytes := by simp [hviews, hview]
    exact isRecord_of_mem_records hmem
  have hsplits := splits_flatten hrecord
  rw [← List.flatMap_def] at hsplits
  change (segmentBytes segment).Splits _ _ at hsplits
  refine ⟨by rw [hsplits.records_eq, map_bytes_viewsAt], ?_, ?_⟩
  · rw [hsplits.position_eq, ← List.flatMap_def, segmentBytes]
  · rw [hsplits.walkError_eq]
    rfl

end DeviceTrace
