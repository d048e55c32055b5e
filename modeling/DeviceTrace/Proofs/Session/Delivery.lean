import DeviceTrace.Proofs.Client.Calls
import DeviceTrace.Proofs.Stream.Segments
import DeviceTrace.Session.Basic

/-!
# What becomes of a buffer that is taken back

Each segment of the buffer's records goes as a whole to the callback of its device, and nowhere if
the device has none. So every record is handed out once and in order to the device that the latest
mark names, and the failures told are those of the segments whose device is not registered, and last
the one of the walk.
-/

namespace DeviceTrace

/-- One record as a completion callback receives it. -/
structure Delivery where
  callback : Nat
  /-- The id by which the host knows the device. -/
  device : Int32
  context : ContextId
  record : Bytes
  deriving DecidableEq, Repr

/-- The records that an event hands to a callback. -/
def Event.deliveries : Event → List Delivery
  | .records callback batch =>
    batch.records.map fun view => ⟨callback, batch.device, batch.context, view.bytes⟩
  | _ => []

def Event.failure? : Event → Option ErrorReport
  | .failure report => some report
  | _ => none

namespace Session

/-- What a segment of the records causes. -/
def segmentEvent? (s : Session) (segment : List RecordView) : Option Event :=
  match s.devices[markedDevice (segmentMark segment)]? with
  | some device => device.callback.map fun callback =>
    .records callback ⟨device.globalId, markedContext (segmentMark segment), segmentBytes segment⟩
  | none =>
    some (.failure
      ((TraceError.unknownDevice (markedDevice (segmentMark segment))).report "buffer_complete"))

/-- Where a record under a mark goes, if its device has a callback. -/
def delivery? (s : Session) (mark : Option RecordView) (view : RecordView) : Option Delivery :=
  s.devices[markedDevice mark]?.bind fun device => device.callback.map fun callback =>
    ⟨callback, device.globalId, markedContext mark, view.bytes⟩

theorem filterMap_spanEvent? (s : Session) (bytes : Bytes) :
    (spans bytes).filterMap (s.spanEvent? bytes) =
      (segments (records bytes)).filterMap s.segmentEvent? := by
  rw [spans_eq_segments, List.filterMap_map]
  apply List.filterMap_congr
  intro segment hsegment
  have hslice := slice_segmentSpan hsegment
  simp only [Function.comp, spanEvent?, segmentEvent?, hslice]
  rfl

/-- The records of a segment go one by one where the segment goes. -/
theorem deliveries_segmentEvent? (s : Session) {bytes : Bytes} {segment : List RecordView}
    (h : segment ∈ segments (records bytes)) :
    (s.segmentEvent? segment).toList.flatMap Event.deliveries =
      segment.filterMap (s.delivery? (segmentMark segment)) := by
  have hwalk := (walk_segmentBytes h).1
  unfold segmentEvent? delivery?
  cases hdevice : s.devices[markedDevice (segmentMark segment)]? with
  | none => simp [Event.deliveries]
  | some device =>
    cases hcallback : device.callback with
    | none => simp [hcallback]
    | some callback =>
      have hmap : (records (segmentBytes segment)).map (fun view =>
            (⟨callback, device.globalId, markedContext (segmentMark segment), view.bytes⟩ :
              Delivery)) =
          segment.map fun view =>
            ⟨callback, device.globalId, markedContext (segmentMark segment), view.bytes⟩ := by
        simpa [Function.comp_def] using congrArg (List.map fun raw =>
          (⟨callback, device.globalId, markedContext (segmentMark segment), raw⟩ : Delivery)) hwalk
      simpa [hcallback, Event.deliveries, RecordBatch.records] using hmap

theorem deliveries_segments (s : Session) (bytes : Bytes) :
    ((segments (records bytes)).filterMap s.segmentEvent?).flatMap Event.deliveries =
      (underMarks none (records bytes)).filterMap fun (mark, view) => s.delivery? mark view := by
  rw [← flatMap_segments, List.filterMap_flatMap, List.filterMap_eq_flatMap_toList,
    List.flatMap_assoc]
  apply List.flatMap_congr
  intro segment hsegment
  rw [deliveries_segmentEvent? s hsegment, List.filterMap_map]
  rfl

theorem failures_segments (s : Session) (segmented : List (List RecordView)) :
    (segmented.filterMap s.segmentEvent?).filterMap Event.failure? =
      (segmented.filter fun segment => s.devices[markedDevice (segmentMark segment)]?.isNone).map
        fun segment =>
          (TraceError.unknownDevice (markedDevice (segmentMark segment))).report
            "buffer_complete" := by
  induction segmented with
  | nil => rfl
  | cons segment segmented ih =>
    cases hdevice : s.devices[markedDevice (segmentMark segment)]? with
    | none => simp [segmentEvent?, hdevice, Event.failure?, ih]
    | some device =>
      cases hcallback : device.callback <;>
        simp [segmentEvent?, hdevice, hcallback, Event.failure?, List.filterMap_cons, ih]

theorem records_mem_segmentEvents {s : Session} {bytes : Bytes} {callback : Nat}
    {batch : RecordBatch}
    (h : .records callback batch ∈ (segments (records bytes)).filterMap s.segmentEvent?) :
    ∃ segment ∈ segments (records bytes), batch.bytes = segmentBytes segment := by
  obtain ⟨segment, hsegment, hevent⟩ := List.mem_filterMap.mp h
  refine ⟨segment, hsegment, ?_⟩
  unfold segmentEvent? at hevent
  split at hevent
  · obtain ⟨_, -, hbatch⟩ := Option.map_eq_some_iff.mp hevent
    cases hbatch
    rfl
  · cases hevent

theorem recordEvents_eq (s : Session) (bytes : Bytes) :
    s.recordEvents bytes = (segments (records bytes)).filterMap s.segmentEvent? ++
      match scanAt bytes (recordsEnd bytes).position with
      | .corrupt offset => [.failure ((TraceError.corruptRecord offset).report "buffer_complete")]
      | _ => [] := by
  rw [recordEvents_def, filterMap_spanEvent?, walkError_eq_scanAt]
  cases scanAt bytes (recordsEnd bytes).position <;> rfl

theorem droppedEvents_some (s : Session) (n : UInt64) :
    s.droppedEvents (some n) =
      if s.config.handlesDropped ∧ 0 < n then [.dropped n] else [] := by
  simp only [droppedEvents, Option.filter_some, Bool.and_eq_true, decide_eq_true_eq, gt_iff_lt]
  split <;> rfl

/-- Taking back a buffer asks for the number of lost records and then causes these events. -/
theorem takeBack_eq (s : Session) (c : Completion) :
    s.takeBack c = (s.ask (.droppedRecordCount c.context c.stream)).2.emit
      (s.droppedEvents
          (s.gateway.client.answer (.droppedRecordCount c.context c.stream)).1.toOption ++
        s.recordEvents c.buffer.validBytes) := by
  unfold takeBack ask
  rw [Gateway.ask_eq]
  rfl

theorem ne_records_of_mem_events (call : ClientCall) (answer : Except TraceError call.Reply)
    {e : Event} (he : e ∈ call.events answer) (callback : Nat) (batch : RecordBatch) :
    e ≠ .records callback batch := by
  cases answer with
  | ok reply =>
    rw [List.mem_singleton.mp he]
    exact Event.noConfusion
  | error error =>
    rcases List.mem_pair.mp he with rfl | rfl <;> exact Event.noConfusion

/-- In the journal, the records that are handed out stand between other events. -/
theorem journal_takeBack (s : Session) (c : Completion) :
    ∃ told ended, (s.takeBack c).gateway.journal = s.gateway.journal ++
        (told ++ (segments (records c.buffer.validBytes)).filterMap s.segmentEvent? ++ ended) ∧
      (∀ e ∈ told, ∀ callback batch, e ≠ .records callback batch) ∧
      ∀ e ∈ ended, ∀ callback batch, e ≠ .records callback batch := by
  let answer := (s.gateway.client.answer (.droppedRecordCount c.context c.stream)).1
  refine ⟨(ClientCall.droppedRecordCount c.context c.stream).events answer ++
    s.droppedEvents answer.toOption,
    (walkError c.buffer.validBytes).toList.map fun e => .failure (e.report "buffer_complete"),
    ?journal, ?told, ?ended⟩
  case journal =>
    rw [takeBack_eq, recordEvents_def, filterMap_spanEvent?, ask, Gateway.ask_eq]
    simp only [emit, Gateway.emit, withGateway, gateway, List.append_assoc]
    rfl
  case told =>
    intro e he callback batch
    rcases List.mem_append.mp he with he | he
    · exact ne_records_of_mem_events _ answer he callback batch
    · obtain ⟨n, -, rfl⟩ := List.mem_map.mp he
      exact Event.noConfusion
  case ended =>
    intro e he callback batch
    obtain ⟨error, -, rfl⟩ := List.mem_map.mp he
    exact Event.noConfusion

/-- What the client answers when it is asked for the records lost before a buffer. -/
def countAnswer (s : Session) (c : Completion) : Except TraceError UInt64 × DeviceClient :=
  s.gateway.client.answer (.droppedRecordCount c.context c.stream)

/-- The whole effect of taking back a buffer. After the call for the number of lost records, and the
report if it fails, come in this order: `told`, the number for the handler of lost records if it is
not zero; `routed`, where each record is delivered once and in the order of the stream to the
callback of the device of the latest mark, if it has one, in batches that are not empty and walk to
their ends, and where each segment, which makes one span, is reported if its device is not
registered; and `ended`, the report of a corrupt record where the walk stops. Nothing else of the
session changes. -/
theorem takeBack_delivers (s : Session) (c : Completion) :
    ∃ told routed ended,
      s.takeBack c = s.withGateway
        { client := (s.countAnswer c).2
          journal := s.gateway.journal ++
            (ClientCall.droppedRecordCount c.context c.stream).events (s.countAnswer c).1 ++
            (told ++ routed ++ ended) } ∧
      told = (match (s.countAnswer c).1 with
        | .ok n => if s.config.handlesDropped ∧ 0 < n then [.dropped n] else []
        | .error _ => []) ∧
      routed.flatMap Event.deliveries =
        (underMarks none (records c.buffer.validBytes)).filterMap (fun (mark, view) =>
          s.devices[markedDevice mark]?.bind fun device => device.callback.map fun callback =>
            ⟨callback, device.globalId, markedContext mark, view.bytes⟩) ∧
      (∀ callback batch, .records callback batch ∈ routed →
        0 < batch.size ∧ (recordsEnd batch.bytes).position = batch.size ∧
          walkError batch.bytes = none) ∧
      (∀ e ∈ routed,
        (∃ callback batch, e = .records callback batch) ∨ ∃ report, e = .failure report) ∧
      spans c.buffer.validBytes = (segments (records c.buffer.validBytes)).map segmentSpan ∧
      routed.filterMap Event.failure? =
        ((segments (records c.buffer.validBytes)).filter fun segment =>
          s.devices[markedDevice (segmentMark segment)]?.isNone).map (fun segment =>
            (TraceError.unknownDevice (markedDevice (segmentMark segment))).report
              "buffer_complete") ∧
      ended = (match scanAt c.buffer.validBytes (recordsEnd c.buffer.validBytes).position with
        | .corrupt offset => [.failure ((TraceError.corruptRecord offset).report "buffer_complete")]
        | _ => []) := by
  refine ⟨s.droppedEvents (s.countAnswer c).1.toOption,
    (segments (records c.buffer.validBytes)).filterMap s.segmentEvent?, _, ?journal, ?told,
    s.deliveries_segments _, ?batches, ?events, spans_eq_segments _, s.failures_segments _, rfl⟩
  case journal =>
    rw [takeBack_eq, recordEvents_eq, ask, Gateway.ask_eq]
    simp [emit, Gateway.emit, countAnswer, withGateway, gateway]
  case told =>
    cases (s.countAnswer c).1 with
    | ok n => exact s.droppedEvents_some n
    | error e => rfl
  case batches =>
    intro callback batch hmem
    obtain ⟨segment, hsegment, hbytes⟩ := records_mem_segmentEvents hmem
    obtain ⟨-, hposition, herror⟩ := walk_segmentBytes hsegment
    rw [RecordBatch.size, hbytes]
    exact ⟨segmentBytes_length_pos_of_mem hsegment, hposition, herror⟩
  case events =>
    intro e he
    obtain ⟨segment, -, hevent⟩ := List.mem_filterMap.mp he
    unfold segmentEvent? at hevent
    split at hevent
    · obtain ⟨callback, -, rfl⟩ := Option.map_eq_some_iff.mp hevent
      exact .inl ⟨_, _, rfl⟩
    · exact .inr ⟨_, (Option.some.inj hevent).symm⟩

end Session
end DeviceTrace
