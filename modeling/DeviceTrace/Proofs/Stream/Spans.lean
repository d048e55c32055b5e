import DeviceTrace.Proofs.Stream.Cursors

/-!
# Spans part the records of a stream

The spans of a stream lie one after the other from its start to the end of its last record, and each
record lies in one of them. Two things keep track of the context that a record belongs to: the span
that it lies in, and a reader that is shown the records in turn. Both tell of the latest mark, and
both of context 0 as long as there is none.
-/

namespace DeviceTrace

/-- The record lies inside of the span. -/
def Span.covers (span : Span) (view : RecordView) : Bool :=
  span.start ≤ view.offset && view.stop ≤ span.stop

/-- The spans lie one after the other from `start` to `stop`, and none of them is empty. -/
def Span.Tile : Nat → Nat → List Span → Prop
  | start, stop, [] => start = stop
  | start, stop, span :: spans =>
    span.start = start ∧ start < span.stop ∧ Tile span.stop stop spans

/-- The same record in a stream with more bytes in front. -/
def RecordView.movedBy (v : RecordView) (distance : Nat) : RecordView :=
  { v with offset := distance + v.offset }

/-- The latest mark at or before a record. -/
def latestMark? (views : List RecordView) (k : Nat) : Option RecordView :=
  ((views.take (k + 1)).filter RecordView.isMark).getLast?

/-- What a reader answers when it reads at some cursors in turn. -/
def ContextReader.readAll (r : ContextReader) (buffer : Bytes) (valid : Nat) :
    List Cursor → List (Option (RecordView × UInt64))
  | [] => []
  | cursor :: cursors =>
    let (answer, r) := r.read buffer valid cursor
    answer :: r.readAll buffer valid cursors

/-! ## Tiles -/

theorem Span.covers_iff {span : Span} {view : RecordView} :
    span.covers view ↔ span.start ≤ view.offset ∧ view.offset + view.size ≤ span.stop := by
  rw [covers, Bool.and_eq_true, decide_eq_true_iff, decide_eq_true_iff, RecordView.stop]

namespace Span.Tile

variable {start stop : Nat} {spans : List Span} {span other : Span} {view : RecordView}

theorem bounds (h : Tile start stop spans) (hspan : span ∈ spans) :
    start ≤ span.start ∧ span.start < span.stop ∧ span.stop ≤ stop := by
  have hall : start ≤ stop ∧ ∀ span ∈ spans,
      start ≤ span.start ∧ span.start < span.stop ∧ span.stop ≤ stop := by
    clear hspan
    induction spans generalizing start with
    | nil => exact ⟨Nat.le_of_eq h, by simp⟩
    | cons first rest ih =>
      obtain ⟨hstart, hlt, hrest⟩ := h
      obtain ⟨hle, hbounds⟩ := ih hrest
      refine ⟨by omega, fun span hspan => ?_⟩
      rcases List.mem_cons.mp hspan with rfl | hmem
      · omega
      · have hspan := hbounds span hmem
        omega
  exact hall.2 span hspan

/-- No byte lies in two spans. -/
theorem eq_of_byte (h : Tile start stop spans) (hspan : span ∈ spans) (hother : other ∈ spans)
    {byte : Nat} (hin : span.start ≤ byte ∧ byte < span.stop)
    (hin' : other.start ≤ byte ∧ byte < other.stop) : other = span := by
  induction spans generalizing start with
  | nil => cases hspan
  | cons first rest ih =>
    obtain ⟨-, -, hrest⟩ := h
    rcases List.mem_cons.mp hspan with rfl | hmem <;>
      rcases List.mem_cons.mp hother with rfl | hmem'
    · rfl
    · have hafter := (hrest.bounds hmem').1
      omega
    · have hafter := (hrest.bounds hmem).1
      omega
    · exact ih hrest hmem hmem'

theorem eq_of_covers (h : Tile start stop spans) (hview : 0 < view.size) (hspan : span ∈ spans)
    (hother : other ∈ spans) (hcovers : span.covers view) (hcovers' : other.covers view) :
    other = span := by
  rw [covers_iff] at hcovers hcovers'
  have hin : span.start ≤ view.offset ∧ view.offset < span.stop := by omega
  exact h.eq_of_byte hspan hother hin (by omega)

theorem eq_of_start (h : Tile start stop spans) (hspan : span ∈ spans) (hother : other ∈ spans)
    (hstart : other.start = span.start) : other = span :=
  h.eq_of_byte hspan hother ⟨Nat.le_refl _, (h.bounds hspan).2.1⟩
    ⟨Nat.le_of_eq hstart, hstart ▸ (h.bounds hother).2.1⟩

end Span.Tile

theorem tile_segmentSpan {offset : Nat} {segs : List (List RecordView)}
    (hne : ∀ segment ∈ segs, segment ≠ []) (h : LaidOut offset segs.flatten) :
    Span.Tile offset (offset + (segmentBytes segs.flatten).length) (segs.map segmentSpan) := by
  induction segs generalizing offset with
  | nil => simp [Span.Tile, segmentBytes]
  | cons segment segs ih =>
    have hsegment : segment ≠ [] := hne segment List.mem_cons_self
    obtain ⟨hlaid, hrest⟩ := laidOut_append.mp h
    have hpos := segmentBytes_length_pos hsegment hlaid
    have htile := ih (fun s hs => hne s (List.mem_cons_of_mem _ hs)) hrest
    rw [List.map_cons, segmentSpan_laidOut hsegment hlaid]
    refine ⟨rfl, by simp only; omega, ?_⟩
    simpa [segmentBytes, Nat.add_assoc] using htile

theorem tile_spans (bytes : Bytes) :
    Span.Tile 0 (recordsEnd bytes).position (spans bytes) := by
  obtain ⟨rest, -, hposition⟩ := exists_segmentBytes_append bytes
  have hflatten : (segments (records bytes)).flatten = records bytes :=
    List.flatten_splitBy _ _
  have hlaid : LaidOut 0 (segments (records bytes)).flatten := by
    rw [hflatten]
    exact laidOut_records bytes
  have hne : ∀ segment ∈ segments (records bytes), segment ≠ [] := by
    intro segment hsegment
    exact List.ne_nil_of_mem_splitBy hsegment
  have htile := tile_segmentSpan hne hlaid
  rwa [hflatten, Nat.zero_add, ← hposition, ← spans_eq_segments] at htile

/-! ## The records of a span -/

theorem mem_spans {bytes : Bytes} {span : Span} :
    span ∈ spans bytes ↔ ∃ segment ∈ segments (records bytes), segmentSpan segment = span := by
  rw [spans_eq_segments, List.mem_map]

theorem mem_of_mem_segments {segment views : List RecordView} {view : RecordView}
    (h : segment ∈ segments views) (hview : view ∈ segment) : view ∈ views := by
  obtain ⟨-, front, back, rfl⟩ := append_of_mem_segments h
  simp [hview]

theorem segmentSpan_start {segment : List RecordView} {view : RecordView}
    (h : segment.head? = some view) : (segmentSpan segment).start = view.offset := by
  rw [segmentSpan, h, Option.map_some, Option.getD_some]

theorem laidOut_of_mem_segments {bytes : Bytes} {segment : List RecordView}
    (h : segment ∈ segments (records bytes)) : LaidOut (segmentSpan segment).start segment := by
  obtain ⟨hne, front, back, hviews⟩ := append_of_mem_segments h
  have hlaid := laidOut_records bytes
  rw [hviews] at hlaid
  obtain ⟨-, hlaid⟩ := laidOut_append.mp hlaid
  obtain ⟨hsegment, -⟩ := laidOut_append.mp hlaid
  rwa [segmentSpan_laidOut hne hsegment]

theorem LaidOut.bounds {offset : Nat} {views : List RecordView} (h : LaidOut offset views)
    {view : RecordView} (hview : view ∈ views) :
    offset ≤ view.offset ∧ 0 < view.size ∧
      view.offset + view.size ≤ offset + (segmentBytes views).length := by
  obtain ⟨front, back, rfl⟩ := List.append_of_mem hview
  obtain ⟨-, hoffset, hpos, -⟩ := laidOut_append.mp h
  refine ⟨by omega, hpos, ?_⟩
  simp only [segmentBytes, List.flatMap_append, List.flatMap_cons, List.length_append,
    RecordView.size] at hoffset ⊢
  omega

/-- A span covers the records of its segment and no others. -/
theorem filter_covers {bytes : Bytes} {segment : List RecordView}
    (h : segment ∈ segments (records bytes)) :
    (records bytes).filter (segmentSpan segment).covers = segment := by
  obtain ⟨hne, front, back, hviews⟩ := append_of_mem_segments h
  have hlaid := laidOut_records bytes
  rw [hviews] at hlaid ⊢
  obtain ⟨hfront, hlaid⟩ := laidOut_append.mp hlaid
  obtain ⟨hsegment, hback⟩ := laidOut_append.mp hlaid
  have hcovers (view : RecordView) : (segmentSpan segment).covers view ↔
      0 + (segmentBytes front).length ≤ view.offset ∧
        view.offset + view.size ≤
          0 + (segmentBytes front).length + (segmentBytes segment).length := by
    rw [segmentSpan_laidOut hne hsegment]
    exact Span.covers_iff
  -- records in front stop before the span starts, and records behind begin where it stops
  have hkept : segment.filter (segmentSpan segment).covers = segment := by
    refine List.filter_eq_self.mpr fun view hview => ?_
    have hbounds := hsegment.bounds hview
    rw [hcovers]
    omega
  have hfrontRemoved : front.filter (segmentSpan segment).covers = [] := by
    refine List.filter_eq_nil_iff.mpr fun view hview => ?_
    have hbounds := hfront.bounds hview
    rw [hcovers]
    omega
  have hbackRemoved : back.filter (segmentSpan segment).covers = [] := by
    refine List.filter_eq_nil_iff.mpr fun view hview => ?_
    have hbounds := hback.bounds hview
    rw [hcovers]
    omega
  rw [List.filter_append, List.filter_append, hfrontRemoved, hkept, hbackRemoved, List.append_nil,
    List.nil_append]

theorem covers_iff_mem {bytes : Bytes} {segment : List RecordView}
    (h : segment ∈ segments (records bytes)) {view : RecordView} (hview : view ∈ records bytes) :
    (segmentSpan segment).covers view ↔ view ∈ segment := by
  conv_rhs => rw [← filter_covers h]
  rw [List.mem_filter]
  exact (and_iff_right hview).symm

theorem LaidOut.eq_viewsAt {offset : Nat} {views : List RecordView} (h : LaidOut offset views) :
    views = viewsAt offset (views.map RecordView.bytes) := by
  induction views generalizing offset with
  | nil => rfl
  | cons v views ih =>
    obtain ⟨hoffset, -, hrest⟩ := h
    rw [List.map_cons, viewsAt, ← hoffset]
    exact congrArg (v :: ·) (ih hrest)

theorem map_movedBy_viewsAt (distance offset : Nat) (chunks : List Bytes) :
    (viewsAt offset chunks).map (·.movedBy distance) = viewsAt (distance + offset) chunks := by
  induction chunks generalizing offset with
  | nil => rfl
  | cons bytes chunks ih =>
    rw [viewsAt, viewsAt, List.map_cons, ih, RecordView.movedBy, Nat.add_assoc]

/-- Walked on its own, a span gives the records that it covers. -/
theorem walk_span {bytes : Bytes} {span : Span} (hspan : span ∈ spans bytes) :
    (records (bytes.slice span.start span.stop)).map (·.movedBy span.start) =
        (records bytes).filter span.covers ∧
      walkError (bytes.slice span.start span.stop) = none := by
  obtain ⟨segment, hsegment, rfl⟩ := mem_spans.mp hspan
  obtain ⟨hbytes, -, hclean⟩ := walk_segmentBytes hsegment
  have hlaid := laidOut_of_mem_segments hsegment
  rw [slice_segmentSpan hsegment, filter_covers hsegment]
  refine ⟨?_, hclean⟩
  -- both are the same chunks, laid out from 0 on and from the start of the span on
  rw [(laidOut_records (segmentBytes segment)).eq_viewsAt, hbytes, map_movedBy_viewsAt,
    Nat.add_zero, ← hlaid.eq_viewsAt]

/-! ## Marks -/

theorem exists_of_mem_tail {α : Type} {R : α → α → Prop} {l : List α} (h : l.IsChain R) {b : α}
    (hb : b ∈ l.tail) : ∃ a ∈ l, R a b := by
  obtain ⟨k, hk, rfl⟩ := List.mem_iff_getElem.mp hb
  rw [List.length_tail] at hk
  exact ⟨l[k], List.getElem_mem _, by
    simpa using List.isChain_iff_getElem.mp h k (by omega)⟩

/-- A mark is the head of the segment that it is in. -/
theorem head?_of_isMark {segment views : List RecordView} (hsegment : segment ∈ segments views)
    {mark : RecordView} (hmem : mark ∈ segment) (hmark : mark.isMark) :
    segment.head? = some mark := by
  cases segment with
  | nil => cases hmem
  | cons v segment =>
    rcases List.mem_cons.mp hmem with rfl | htail
    · rfl
    · obtain ⟨_, -, hcontinues⟩ :=
        exists_of_mem_tail (List.isChain_of_mem_splitBy hsegment) htail
      simp [RecordView.continues, hmark] at hcontinues

/-- Every segment but the first begins with a mark. -/
theorem exists_mark_of_mem_tail {segment views : List RecordView}
    (h : segment ∈ (segments views).tail) :
    ∃ mark, segment.head? = some mark ∧ mark.isMark := by
  obtain ⟨_, -, _, hne, hbreak⟩ :=
    exists_of_mem_tail (List.isChain_getLast_head_splitBy RecordView.continues views) h
  exact ⟨segment.head hne, List.head?_eq_some_head hne,
    by simpa [RecordView.continues] using hbreak⟩

theorem latestMark?_zero (v : RecordView) (views : List RecordView) :
    latestMark? (v :: views) 0 = if v.isMark then some v else none := by
  cases hv : v.isMark <;> simp [latestMark?, hv]

theorem latestMark?_succ (v : RecordView) (views : List RecordView) (k : Nat) :
    latestMark? (v :: views) (k + 1) =
      (latestMark? views k).or (if v.isMark then some v else none) := by
  rw [latestMark?, List.take_succ_cons]
  cases hv : v.isMark with
  | true =>
    rw [List.filter_cons_of_pos hv, List.getLast?_cons, ← latestMark?]
    cases latestMark? views k <;> rfl
  | false => rw [List.filter_cons_of_neg (by simp [hv]), ← latestMark?]; simp

theorem getElem?_underMarks (mark : Option RecordView) (views : List RecordView) (k : Nat) :
    (underMarks mark views)[k]? =
      views[k]?.map fun view => ((latestMark? views k).or mark, view) := by
  induction views generalizing mark k with
  | nil => rfl
  | cons v views ih =>
    cases k with
    | zero => cases hv : v.isMark <;> simp [underMarks, latestMark?_zero, hv]
    | succ k => cases hv : v.isMark <;> simp [underMarks, latestMark?_succ, ih, hv]

/-- A record is in a segment that the latest mark opens. -/
theorem exists_segment {views : List RecordView} {k : Nat} {view : RecordView}
    (h : views[k]? = some view) :
    ∃ segment ∈ segments views, view ∈ segment ∧ segmentMark segment = latestMark? views k := by
  have hunder : (latestMark? views k, view) ∈ underMarks none views := by
    refine List.mem_of_getElem? (i := k) ?_
    rw [getElem?_underMarks, h, Option.map_some, Option.or_none]
  rw [← flatMap_segments] at hunder
  obtain ⟨segment, hsegment, hmem⟩ := List.mem_flatMap.mp hunder
  obtain ⟨_, hview, hpair⟩ := List.mem_map.mp hmem
  obtain ⟨hmark, rfl⟩ := Prod.mk.inj hpair
  exact ⟨segment, hsegment, hview, hmark⟩

/-! ## What a reader tells -/

theorem markedContext_observe (mark : Option RecordView) (v : RecordView) :
    (⟨(markedContext mark).toUInt64⟩ : ContextReader).observe v =
      ⟨(markedContext (if v.isMark then some v else mark)).toUInt64⟩ := by
  rw [ContextReader.observe]
  by_cases hv : v.kind? = some .context
  · simp [RecordView.isMark, hv, markedContext]
  · simp [RecordView.isMark, hv]

/-- A reader that is shown records in turn tells of each the context of the mark it is under. -/
theorem readAll_eq {buffer : Bytes} {valid : Nat} (mark : Option RecordView)
    {views : List RecordView}
    (h : ∀ view ∈ views, recordAt? buffer valid view.cursor = some view) :
    (⟨(markedContext mark).toUInt64⟩ : ContextReader).readAll buffer valid
        (views.map RecordView.cursor) =
      (underMarks mark views).map fun under =>
        some (under.2, (markedContext under.1).toUInt64) := by
  -- the context that the reader remembers is that of a mark all along, so the mark is generalized
  induction views generalizing mark with
  | nil => rfl
  | cons v views ih =>
    have hrest := fun mark => ih mark fun view hview => h view (List.mem_cons_of_mem v hview)
    rw [List.map_cons, ContextReader.readAll, ContextReader.read, h v List.mem_cons_self]
    simp only [markedContext_observe, hrest, underMarks, List.map_cons]

theorem getElem?_readAll (bytes : Bytes) (k : Nat) :
    (({} : ContextReader).readAll bytes bytes.length ((records bytes).map RecordView.cursor))[k]? =
      (records bytes)[k]?.map fun view =>
        some (view, (markedContext (latestMark? (records bytes) k)).toUInt64) := by
  have hat : ∀ view ∈ records bytes,
      recordAt? bytes bytes.length view.cursor = some view := by
    intro view hview
    obtain ⟨k, hk⟩ := List.mem_iff_getElem?.mp hview
    rw [recordAt?, validRegion, List.take_length]
    exact (parse?_of_getElem? hk).1
  have hanswers := readAll_eq none hat
  change ({} : ContextReader).readAll _ _ _ = _ at hanswers
  rw [hanswers, List.getElem?_map, getElem?_underMarks]
  cases (records bytes)[k]? with
  | none => rfl
  | some view => simp

/-- The spans of a stream lie one after the other from its start to the end of the last record that
a reader hands out, and none of them is empty. All but the first begin with a mark, and a span has a
mark nowhere but at its start. Walked on its own, a span gives the records that it covers, with
offsets that count from the start of the span, and no error; the error of the stream is the one that
a reader of the whole stream ends with. Every record lies in one span. The latest mark at or before
the record names the device and the context of the span, with device 0 and context 0 as long as
there is no mark, and a fresh reader that reads the records in turn tells of each the context of its
span. -/
theorem spans_part_records (bytes : Bytes) :
    let views := records bytes
    let answers := ({} : ContextReader).readAll bytes bytes.length (views.map RecordView.cursor)
    let (spans, error) := contextSpans bytes
    Span.Tile 0 ((views.getLast?.map RecordView.stop).getD 0) spans ∧
      (∀ span ∈ spans.tail, ∃ mark ∈ views, mark.isMark ∧ mark.offset = span.start) ∧
      (∀ span ∈ spans, ∀ mark ∈ views, mark.isMark → span.covers mark →
        mark.offset = span.start) ∧
      (∀ span ∈ spans,
        (records (bytes.slice span.start span.stop)).map (·.movedBy span.start) =
            views.filter span.covers ∧
          walkError (bytes.slice span.start span.stop) = none) ∧
      (∀ k, views.length < k → ((Records.ofBytes bytes).after k).error = error) ∧
      ∀ k, ∀ view ∈ views[k]?, ∃ span ∈ spans, span.covers view ∧
        (∀ other ∈ spans, other.covers view → other = span) ∧
        span.device = markedDevice (latestMark? views k) ∧
        span.context = markedContext (latestMark? views k) ∧
        answers[k]? = some (some (view, span.context.toUInt64)) := by
  intro views answers
  rw [contextSpans_eq]
  have htile := tile_spans bytes
  rw [recordsEnd, Records.position_run] at htile
  refine ⟨htile, ?marked, ?once, fun span hspan => walk_span hspan,
    fun k hk => congrArg Records.error (Records.after_of_length_lt _ hk), ?context⟩
  case marked =>
    intro span hspan
    rw [spans_eq_segments, ← List.map_tail] at hspan
    obtain ⟨segment, hsegment, rfl⟩ := List.mem_map.mp hspan
    obtain ⟨mark, hhead, hmark⟩ := exists_mark_of_mem_tail hsegment
    exact ⟨mark, mem_of_mem_segments (List.mem_of_mem_tail hsegment) (List.mem_of_head? hhead),
      hmark, (segmentSpan_start hhead).symm⟩
  case once =>
    intro span hspan mark hview hmark hcovers
    obtain ⟨segment, hsegment, rfl⟩ := mem_spans.mp hspan
    have hcovered : mark ∈ segment := (covers_iff_mem hsegment hview).mp hcovers
    exact (segmentSpan_start (head?_of_isMark hsegment hcovered hmark)).symm
  case context =>
    intro k view hview
    obtain ⟨segment, hsegment, hin, hmark⟩ := exists_segment hview
    have hmem : view ∈ views := List.mem_of_getElem? hview
    have hspan : segmentSpan segment ∈ spans bytes := mem_spans.mpr ⟨segment, hsegment, rfl⟩
    have hcovers : (segmentSpan segment).covers view := (covers_iff_mem hsegment hmem).mpr hin
    have hpos := ((laidOut_records bytes).bounds hmem).2.1
    refine ⟨segmentSpan segment, hspan, hcovers,
      fun other hother hcovers' => htile.eq_of_covers hpos hspan hother hcovers hcovers',
      by rw [segmentSpan, hmark], by rw [segmentSpan, hmark], ?_⟩
    rw [getElem?_readAll, hview, Option.map_some, segmentSpan, hmark]

end DeviceTrace
