import DeviceTrace.Proofs.Stream.Spans
import DeviceTrace.Record.Basic
import DeviceTrace.Stream.Router

/-!
# Draining a stream as a whole and span by span

A drain asks a reader for one record after the other and hands each to its handler before it asks
for the next. Drained as a part of a span a record has the same bytes as in the whole stream, while
its offset counts from the start of the span. So as long as no handler looks at offsets, draining
the spans in turn does to the state what draining the stream does, and counts the same records. What
is left to the drain of the whole stream is the error, since every span ends with its last record.
-/

namespace DeviceTrace

/-- What is told of a drain at its end. -/
structure DrainSummary where
  counts : RouteCounts
  error : Option TraceError
  deriving DecidableEq, Repr

instance : Zero RouteCounts := ⟨{}⟩

instance : Add RouteCounts := ⟨fun c d => ⟨c.handled + d.handled, c.unknown + d.unknown⟩⟩

theorem RouteCounts.add_add (c d : RouteCounts) (handled : Bool) :
    c.add handled + d = c + ((0 : RouteCounts).add handled + d) := by
  cases handled with
  | true =>
    show RouteCounts.mk (c.handled + 1 + d.handled) (c.unknown + d.unknown) =
      ⟨c.handled + (0 + 1 + d.handled), c.unknown + (0 + d.unknown)⟩
    congr 1 <;> omega
  | false =>
    show RouteCounts.mk (c.handled + d.handled) (c.unknown + 1 + d.unknown) =
      ⟨c.handled + (0 + d.handled), c.unknown + (0 + 1 + d.unknown)⟩
    congr 1 <;> omega

theorem RouteCounts.total_add (c : RouteCounts) (handled : Bool) :
    (c.add handled).handled + (c.add handled).unknown = c.handled + c.unknown + 1 := by
  cases handled with
  | true => exact Nat.add_right_comm ..
  | false => rfl

theorem RecordView.tag_congr {view other : RecordView} (h : view.bytes = other.bytes) :
    view.tag = other.tag := by
  rw [tag, uint32At, h]
  rfl

namespace Router

variable {σ : Type}

/-- Hands the records of a reader to their handlers, each as soon as the reader gives it. -/
def drainReader (r : Router σ) (reader : Records) (acc : RouteCounts × σ) :
    (RouteCounts × σ) × Records :=
  match _h : reader.next with
  | (some view, reader') =>
    let (handled, s) := r.route view acc.2
    r.drainReader reader' (acc.1.add handled, s)
  | (none, reader') => (acc, reader')
  termination_by reader.rest.length
  decreasing_by exact Records.rest_lt_of_next _h

/-- Drains a byte range with a reader of its own. -/
def drainRange (r : Router σ) (range : Bytes) (s : σ) : DrainSummary × σ :=
  let ((counts, s), reader) := r.drainReader (.ofBytes range) (0, s)
  (⟨counts, reader.error⟩, s)

def drainRanges (r : Router σ) : List Bytes → σ → List DrainSummary × σ
  | [], s => ([], s)
  | range :: ranges, s =>
    let (summary, s) := r.drainRange range s
    let (summaries, s) := r.drainRanges ranges s
    (summary :: summaries, s)

/-- Every handler treats records of the same bytes alike, wherever they lie. -/
def OffsetFree (r : Router σ) : Prop :=
  ∀ handler, (handler = r.unknown ∨ ∃ kind, r.handlers kind = some handler) →
    ∀ view other : RecordView, view.bytes = other.bytes → ∀ s, handler view s = handler other s

variable (r : Router σ)

/-! ## The loop of a drain -/

theorem drainReader_of_next {reader reader' : Records} {view : RecordView}
    (h : reader.next = (some view, reader')) (acc : RouteCounts × σ) :
    r.drainReader reader acc =
      r.drainReader reader' (acc.1.add (r.route view acc.2).1, (r.route view acc.2).2) := by
  rw [drainReader]
  split
  · rename_i hnext
    rw [h] at hnext
    obtain ⟨rfl, rfl⟩ := by simpa using hnext
    rfl
  · rename_i hnext
    rw [h] at hnext
    simp at hnext

theorem drainReader_of_next_none {reader reader' : Records} (h : reader.next = (none, reader'))
    (acc : RouteCounts × σ) : r.drainReader reader acc = (acc, reader') := by
  rw [drainReader]
  split
  · rename_i hnext
    rw [h] at hnext
    simp at hnext
  · rename_i hnext
    rw [h] at hnext
    obtain rfl := by simpa using hnext
    rfl

/-- Handing out records while they are read is handing them out after all have been read. -/
theorem drainReader_eq (reader : Records) (acc : RouteCounts × σ) :
    r.drainReader reader acc = (r.routeAll reader.run.1 acc, reader.run.2) := by
  induction reader using Records.run.induct generalizing acc with
  | case1 reader view reader' hnext views last hrun ih =>
    rw [r.drainReader_of_next hnext, ih, Records.run_of_next hnext]
    rfl
  | case2 reader reader' hnext =>
    rw [r.drainReader_of_next_none hnext, Records.run_of_next_none hnext]
    rfl

theorem drainRange_eq (range : Bytes) (s : σ) :
    r.drainRange range s =
      (⟨(r.drain range s).1, walkError range⟩, (r.drain range s).2) := by
  rw [drainRange, drainReader_eq]
  rfl

/-! ## Records in turn -/

theorem routeAll_cons (view : RecordView) (views : List RecordView) (acc : RouteCounts × σ) :
    r.routeAll (view :: views) acc =
      r.routeAll views (acc.1.add (r.route view acc.2).1, (r.route view acc.2).2) := rfl

theorem routeAll_append (views more : List RecordView) (acc : RouteCounts × σ) :
    r.routeAll (views ++ more) acc = r.routeAll more (r.routeAll views acc) := by
  induction views generalizing acc with
  | nil => rfl
  | cons view views ih => exact ih _

/-- What has been counted before is only added to. -/
theorem routeAll_counts (views : List RecordView) (counts : RouteCounts) (s : σ) :
    r.routeAll views (counts, s) =
      (counts + (r.routeAll views (0, s)).1, (r.routeAll views (0, s)).2) := by
  induction views generalizing counts s with
  | nil => rfl
  | cons view views ih =>
    rw [routeAll_cons, routeAll_cons, ih, ih (RouteCounts.add 0 _), RouteCounts.add_add]

/-- Every record is counted once. -/
theorem total_routeAll (views : List RecordView) (acc : RouteCounts × σ) :
    (r.routeAll views acc).1.handled + (r.routeAll views acc).1.unknown =
      acc.1.handled + acc.1.unknown + views.length := by
  induction views generalizing acc with
  | nil => rfl
  | cons view views ih =>
    rw [routeAll_cons, ih, RouteCounts.total_add, List.length_cons, Nat.add_assoc,
      Nat.add_comm 1]

variable {r}

theorem OffsetFree.route_eq (hr : r.OffsetFree) {view other : RecordView}
    (h : view.bytes = other.bytes) (s : σ) : r.route view s = r.route other s := by
  have hkind : view.kind? = other.kind? := congrArg Kind.ofCode? (RecordView.tag_congr h)
  have hhandler : r.handlerOf? view = r.handlerOf? other := by
    rw [handlerOf?, hkind, ← handlerOf?]
  rw [route, route, ← hhandler]
  cases hof : r.handlerOf? view with
  | none => exact congrArg (Prod.mk false) (hr _ (.inl rfl) view other h s)
  | some handler =>
    obtain ⟨kind, -, hregistered⟩ := Option.bind_eq_some_iff.mp hof
    exact congrArg (Prod.mk true) (hr handler (.inr ⟨kind, hregistered⟩) view other h s)

theorem OffsetFree.routeAll_eq (hr : r.OffsetFree) {views others : List RecordView}
    (h : views.map RecordView.bytes = others.map RecordView.bytes) (acc : RouteCounts × σ) :
    r.routeAll views acc = r.routeAll others acc := by
  induction views generalizing others acc with
  | nil =>
    obtain rfl := List.map_eq_nil_iff.mp h.symm
    rfl
  | cons view views ih =>
    obtain ⟨other, others, rfl, hview, hviews⟩ := List.map_eq_cons_iff.mp h.symm
    rw [routeAll_cons, routeAll_cons, hr.route_eq hview.symm, ih hviews.symm]

/-! ## Spans in turn -/

/-- Draining the bytes of some segments one after the other hands out the records of them all. -/
theorem OffsetFree.drainRanges_eq (hr : r.OffsetFree) {bytes : Bytes}
    {segs : List (List RecordView)} (hsegs : ∀ segment ∈ segs, segment ∈ segments (records bytes))
    (s : σ) :
    (((r.drainRanges (segs.map segmentBytes) s).1.map DrainSummary.counts).sum,
        (r.drainRanges (segs.map segmentBytes) s).2) = r.routeAll segs.flatten (0, s) ∧
      ∀ summary ∈ (r.drainRanges (segs.map segmentBytes) s).1, summary.error = none := by
  induction segs generalizing s with
  | nil => exact ⟨rfl, fun _ h => absurd h List.not_mem_nil⟩
  | cons segment segs ih =>
    obtain ⟨hsegment, hrest⟩ := List.forall_mem_cons.mp hsegs
    obtain ⟨hbytes, -, hclean⟩ := walk_segmentBytes hsegment
    have hdrain : r.drain (segmentBytes segment) s = r.routeAll segment (0, s) :=
      hr.routeAll_eq hbytes _
    obtain ⟨hcounts, herrors⟩ := ih hrest (r.drain (segmentBytes segment) s).2
    obtain ⟨htotal, hstate⟩ := Prod.mk.inj hcounts
    rw [List.map_cons, drainRanges, drainRange_eq]
    refine ⟨Prod.ext ?counts ?state, List.forall_mem_cons.mpr ⟨hclean, herrors⟩⟩
    case counts =>
      rw [List.flatten_cons, routeAll_append, ← hdrain, routeAll_counts, ← htotal]
      rfl
    case state =>
      rw [List.flatten_cons, routeAll_append, ← hdrain, routeAll_counts, ← hstate]

theorem slices_of_spans (bytes : Bytes) :
    (spans bytes).map (fun span => bytes.slice span.start span.stop) =
      (segments (records bytes)).map segmentBytes := by
  rw [spans_eq_segments, List.map_map]
  exact List.map_congr_left fun segment hsegment => slice_segmentSpan hsegment

/-- If no handler looks at offsets, then draining the spans of a stream one after the other, each as
a byte range of its own, ends in the state in which draining the whole stream ends, and the drains
have handed as many records to handlers of their kind and as many to the one for unknown records. No
drain of a span tells an error, and that of the whole stream tells the one that comes with the
spans. Every record of the stream is counted once. -/
theorem drain_by_spans (r : Router σ) (hr : r.OffsetFree) (bytes : Bytes) (s : σ) :
    let (spans, error) := contextSpans bytes
    let (summary, s') := r.drainRange bytes s
    let (summaries, s'') :=
      r.drainRanges (spans.map fun span => bytes.slice span.start span.stop) s
    s'' = s' ∧ (summaries.map DrainSummary.counts).sum = summary.counts ∧
      (∀ part ∈ summaries, part.error = none) ∧ summary.error = error ∧
      summary.counts.handled + summary.counts.unknown = (records bytes).length ∧
      (summary.counts, s') = r.drain bytes s := by
  have hflatten : (segments (records bytes)).flatten = records bytes := List.flatten_splitBy _ _
  have hsegs : ∀ segment ∈ segments (records bytes), segment ∈ segments (records bytes) :=
    fun _ h => h
  obtain ⟨hparts, herrors⟩ := hr.drainRanges_eq hsegs s
  rw [hflatten] at hparts
  obtain ⟨hcounts, hstate⟩ := Prod.mk.inj hparts
  have htotal := r.total_routeAll (records bytes) (0, s)
  rw [contextSpans_eq]
  dsimp only
  rw [slices_of_spans, drainRange_eq]
  refine ⟨hstate, hcounts, herrors, rfl, htotal.trans (Nat.zero_add _), rfl⟩

/-! A kernel, a mark of device 1, a record of no known kind, another kernel, and behind them a
header that states more bytes than are left. -/

def twoDeviceStream : Bytes :=
  [.other .kernel, .contextMark ⟨7, 1, 0, 0⟩, .unknown 777, .other .kernel].flatMap Record.encode ++
    [3, 0, 0, 0, 64, 0, 0, 0]

/-- Lists the tags of kernels, and 0 for every other record. -/
def noteKernels : Router (List UInt32) :=
  (Router.empty.onKind .kernel fun view s => s ++ [view.tag]).onUnknown fun _ s => s ++ [0]

theorem offsetFree_noteKernels : noteKernels.OffsetFree := by
  rintro handler (rfl | ⟨kind, hkind⟩) view other hbytes s
  · rfl
  · obtain ⟨-, hhandler⟩ := Option.ite_none_right_eq_some.mp hkind
    cases hhandler
    exact congrArg (fun tag => s ++ [tag]) (RecordView.tag_congr hbytes)

theorem drain_by_spans_of_two_devices :
    noteKernels.OffsetFree ∧
      (noteKernels.drainRanges ((spans twoDeviceStream).map fun span =>
        twoDeviceStream.slice span.start span.stop) []).2 = [3, 0, 0, 3] ∧
      (noteKernels.drainRange twoDeviceStream []).1 =
        ⟨⟨2, 2⟩, some (.corruptRecord 48)⟩ := by
  obtain ⟨hstate, -, -, herror, -, hdrain⟩ :=
    noteKernels.drain_by_spans offsetFree_noteKernels twoDeviceStream []
  have hdrained : noteKernels.drain twoDeviceStream [] = (⟨2, 2⟩, [3, 0, 0, 3]) := by decide +kernel
  have hcorrupt : walkError twoDeviceStream = some (.corruptRecord 48) := by decide +kernel
  obtain ⟨hcounts, hend⟩ := Prod.mk.inj (hdrain.trans hdrained)
  exact ⟨offsetFree_noteKernels, hstate.trans hend,
    congrArg₂ DrainSummary.mk hcounts (herror.trans hcorrupt)⟩

end Router
end DeviceTrace
