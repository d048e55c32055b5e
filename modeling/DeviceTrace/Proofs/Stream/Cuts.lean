import DeviceTrace.Proofs.Stream.Spans
import DeviceTrace.Record.Basic

/-!
# Streams that are cut off and streams that are joined

Where a record ends is told by its own bytes, so a walk finds in front of a cut what it finds in the
whole stream: the records that end there, and nothing else. And behind a stream whose last record
reaches its very end another one may begin, whose records and whose error are the same there, only
further away from the start.
-/

namespace DeviceTrace

/-- The same error in a stream with more bytes in front. -/
def TraceError.movedBy (e : TraceError) (distance : Nat) : TraceError :=
  match e with
  | .corruptRecord offset => .corruptRecord (distance + offset)
  | e => e

/-! ## Records at the front of bytes -/

theorem exists_isRecord_of_scanFront {offset : Nat} {rest : Bytes} {view : RecordView}
    (h : scanFront offset rest = .record view) :
    view.bytes.IsRecord ∧ ∃ back, rest = view.bytes ++ back := by
  obtain ⟨-, hbytes, -, -⟩ := scanFront_record h
  refine ⟨isRecord_of_scanFront h, rest.drop view.size, ?_⟩
  conv_rhs => rw [hbytes]
  exact (List.take_append_drop _ _).symm

/-- At most one record begins some bytes. -/
theorem Bytes.IsRecord.eq_of_append_eq {bytes other back more : Bytes} (h : bytes.IsRecord)
    (hother : other.IsRecord) (heq : bytes ++ back = other ++ more) : bytes = other := by
  have hscan := scanFront_append h 0 back
  rw [heq, scanFront_append hother 0 more] at hscan
  injection hscan with hview
  exact (congrArg RecordView.bytes hview).symm

/-- A record that is cut off is none. -/
theorem Bytes.IsRecord.startsNoRecord_take {bytes : Bytes} (h : bytes.IsRecord) {cut : Nat}
    (hcut : cut < bytes.length) : Bytes.StartsNoRecord (bytes.take cut) := by
  intro offset view hscan
  obtain ⟨hrecord, back, hback⟩ := exists_isRecord_of_scanFront hscan
  have heq : view.bytes ++ (back ++ bytes.drop cut) = bytes ++ [] := by
    rw [← List.append_assoc, ← hback, List.take_append_drop, List.append_nil]
  obtain rfl := hrecord.eq_of_append_eq h heq
  have hlength := congrArg List.length hback
  simp only [List.length_take, List.length_append] at hlength
  omega

theorem Bytes.StartsNoRecord.take {rest : Bytes} (h : rest.StartsNoRecord) (cut : Nat) :
    Bytes.StartsNoRecord (rest.take cut) := by
  intro offset view hscan
  obtain ⟨hrecord, back, hback⟩ := exists_isRecord_of_scanFront hscan
  refine h offset ⟨offset, view.bytes⟩ ?_
  rw [← List.take_append_drop cut rest, hback, List.append_assoc]
  exact scanFront_append hrecord offset _

/-! ## A stream that is cut off -/

theorem lt_stop_of_mem_viewsAt {chunks : List Bytes} (h : ∀ chunk ∈ chunks, Bytes.IsRecord chunk)
    {offset : Nat} {view : RecordView} (hview : view ∈ viewsAt offset chunks) :
    offset < view.stop := by
  have hbounds := (laidOut_viewsAt h offset).bounds hview
  rw [RecordView.stop]
  omega

/-- The first bytes of a stream have as records those that end among them. -/
theorem Bytes.Splits.exists_take {bytes rest : Bytes} {chunks : List Bytes}
    (h : bytes.Splits chunks rest) (offset cut : Nat) :
    ∃ kept left, Bytes.Splits (bytes.take cut) kept left ∧
      viewsAt offset kept =
        (viewsAt offset chunks).filter fun view => view.stop ≤ offset + cut := by
  induction chunks generalizing bytes offset cut with
  | nil =>
    have hbytes : bytes = rest := h.append
    exact ⟨[], bytes.take cut, ⟨rfl, by simp, hbytes ▸ h.stops.take cut⟩, rfl⟩
  | cons chunk chunks ih =>
    obtain ⟨happend, hrecords, hstops⟩ := h
    obtain ⟨hchunk, hchunks⟩ := List.forall_mem_cons.mp hrecords
    rw [List.flatten_cons, List.append_assoc] at happend
    by_cases hcut : chunk.length ≤ cut
    · obtain ⟨kept, left, ⟨happend', hkept, hleft⟩, hviews⟩ :=
        ih ⟨rfl, hchunks, hstops⟩ (offset + chunk.length) (cut - chunk.length)
      have htake :
          bytes.take cut = chunk ++ (chunks.flatten ++ rest).take (cut - chunk.length) := by
        rw [happend, List.take_append, List.take_of_length_le hcut]
      have hroom : offset + chunk.length + (cut - chunk.length) = offset + cut := by omega
      have hstop : (⟨offset, chunk⟩ : RecordView).stop ≤ offset + cut :=
        Nat.add_le_add_left hcut offset
      refine ⟨chunk :: kept, left, ⟨?_, List.forall_mem_cons.mpr ⟨hchunk, hkept⟩, hleft⟩, ?_⟩
      · rw [htake, happend', List.flatten_cons, List.append_assoc]
      · rw [viewsAt, viewsAt, hviews, hroom, List.filter_cons, if_pos (decide_eq_true hstop)]
    · have hlt : cut < chunk.length := Nat.lt_of_not_le hcut
      have htake : bytes.take cut = chunk.take cut := by
        rw [happend, List.take_append_of_le_length (Nat.le_of_lt hlt)]
      refine ⟨[], bytes.take cut, ⟨rfl, by simp, htake ▸ hchunk.startsNoRecord_take hlt⟩, ?_⟩
      -- the first record is cut off, and all others lie behind it
      refine (List.filter_eq_nil_iff.mpr fun view hview => ?_).symm
      rw [decide_eq_true_iff]
      rcases List.mem_cons.mp hview with rfl | htail
      · exact Nat.not_le_of_lt (Nat.add_lt_add_left hlt offset)
      · have hbehind := lt_stop_of_mem_viewsAt hchunks htail
        omega

theorem records_take (bytes : Bytes) (cut : Nat) :
    records (bytes.take cut) = (records bytes).filter fun view => view.stop ≤ cut := by
  obtain ⟨chunks, rest, h⟩ := bytes.exists_splits
  obtain ⟨kept, left, hkept, hviews⟩ := h.exists_take 0 cut
  rw [hkept.records_eq, h.records_eq, hviews, Nat.zero_add]

/-- A walk ends with an error exactly if a whole header lies behind its last record. -/
theorem walkError_eq_ite (bytes : Bytes) :
    walkError bytes =
      if (recordsEnd bytes).position + headerSize ≤ bytes.length then
        some (.corruptRecord (recordsEnd bytes).position)
      else none := by
  rcases walkError_cases bytes with ⟨hcorrupt, herror⟩ | ⟨hshort, herror⟩
  · rw [herror, if_pos hcorrupt.header]
  · rw [herror, if_neg (Nat.not_le_of_lt hshort)]

/-! ## Streams that are joined -/

theorem viewsAt_append (offset : Nat) (chunks more : List Bytes) :
    viewsAt offset (chunks ++ more) =
      viewsAt offset chunks ++ viewsAt (offset + chunks.flatten.length) more := by
  induction chunks generalizing offset with
  | nil => rfl
  | cons chunk chunks ih =>
    rw [List.cons_append, viewsAt, viewsAt, ih, List.flatten_cons, List.length_append,
      Nat.add_assoc]
    rfl

/-- A walk that has used all bytes leaves nothing behind its last record. -/
theorem Bytes.Splits.rest_eq_nil {bytes rest : Bytes} {chunks : List Bytes}
    (h : bytes.Splits chunks rest) (hend : (recordsEnd bytes).position = bytes.length) :
    rest = [] := by
  rw [h.position_eq, h.append, List.length_append] at hend
  exact List.eq_nil_of_length_eq_zero (by omega)

theorem Bytes.Splits.append_front {front bytes rest : Bytes} {chunks more : List Bytes}
    (hfront : front.Splits chunks []) (h : bytes.Splits more rest) :
    Bytes.Splits (front ++ bytes) (chunks ++ more) rest where
  append := by
    rw [hfront.append, h.append, List.append_nil, List.flatten_append, List.append_assoc]
  records := fun chunk hchunk => (List.mem_append.mp hchunk).elim
    (hfront.records chunk) (h.records chunk)
  stops := h.stops

/-- The first bytes of a stream have as records those that end among them, at the same offsets, and
an error if at least a header is left behind the last of these. If the records of `front` reach its
very end, so that its walk ends without an error, then its records and those of the stream behind it
are the records of both together, and the error is that of the stream behind, all moved by the
length of `front`. -/
theorem records_of_parts (bytes : Bytes) :
    (∀ cut ≤ bytes.length,
      let kept := (records bytes).filter fun view => view.stop ≤ cut
      let stop := (kept.getLast?.map RecordView.stop).getD 0
      records (bytes.take cut) = kept ∧
        walkError (bytes.take cut) =
          if stop + headerSize ≤ cut then some (.corruptRecord stop) else none) ∧
    ∀ front : Bytes, (recordsEnd front).position = front.length →
      walkError front = none ∧
        records (front ++ bytes) =
          records front ++ (records bytes).map (·.movedBy front.length) ∧
        walkError (front ++ bytes) = (walkError bytes).map (·.movedBy front.length) := by
  refine ⟨?cut, ?joined⟩
  case cut =>
    intro cut hcut kept stop
    have hkept : records (bytes.take cut) = kept := records_take bytes cut
    have hstop : (recordsEnd (bytes.take cut)).position = stop := by
      rw [recordsEnd, Records.position_run]
      exact congrArg (fun views => (views.getLast?.map RecordView.stop).getD 0) hkept
    refine ⟨hkept, ?_⟩
    rw [walkError_eq_ite, hstop, List.length_take, Nat.min_eq_left hcut]
  case joined =>
    intro front hend
    obtain ⟨chunks, left, hfront⟩ := front.exists_splits
    obtain ⟨more, rest, hbytes⟩ := bytes.exists_splits
    obtain rfl := hfront.rest_eq_nil hend
    have hlength : chunks.flatten.length = front.length := hfront.position_eq.symm.trans hend
    have hjoined := hfront.append_front hbytes
    refine ⟨?clean, ?records, ?error⟩
    case clean =>
      rw [walkError_eq_ite, hend, if_neg (Nat.not_le_of_lt (Nat.lt_add_of_pos_right (by decide)))]
    case records =>
      rw [hjoined.records_eq, hfront.records_eq, hbytes.records_eq, viewsAt_append,
        map_movedBy_viewsAt, hlength, Nat.zero_add, Nat.add_zero]
    case error =>
      have hposition : (recordsEnd (front ++ bytes)).position =
          front.length + (recordsEnd bytes).position := by
        rw [hjoined.position_eq, hbytes.position_eq, List.flatten_append, List.length_append,
          hlength]
      rw [walkError_eq_ite, walkError_eq_ite, hposition, List.length_append, Nat.add_assoc]
      by_cases hroom : (recordsEnd bytes).position + headerSize ≤ bytes.length
      · rw [if_pos hroom, if_pos (Nat.add_le_add_left hroom _)]
        rfl
      · rw [if_neg hroom, if_neg fun h => hroom (Nat.le_of_add_le_add_left h)]
        rfl

/-! A kernel, and an API call with a header behind it that states more bytes than are left. -/

def kernelStream : Bytes := (Record.other .kernel).encode

def tornStream : Bytes := (Record.other .runtime).encode ++ [5, 0, 0, 0, 64, 0, 0, 0]

theorem records_of_parts_torn :
    12 ≤ tornStream.length ∧ (recordsEnd kernelStream).position = kernelStream.length ∧
      (records (tornStream.take 12)).map RecordView.offset = [0] ∧
      walkError (tornStream.take 12) = none ∧
      (records (kernelStream ++ tornStream)).map RecordView.offset = [0, 8] ∧
      walkError (kernelStream ++ tornStream) = some (.corruptRecord 16) := by
  obtain ⟨hcut, hjoined⟩ := records_of_parts tornStream
  have hlength : 12 ≤ tornStream.length := by decide
  have hend : (recordsEnd kernelStream).position = kernelStream.length := by decide +kernel
  obtain ⟨hkept, hshort⟩ := hcut 12 hlength
  obtain ⟨-, hrecords, herror⟩ := hjoined kernelStream hend
  refine ⟨hlength, hend, ?_, ?_, ?_, ?_⟩
  · rw [hkept]; decide +kernel
  · rw [hshort]; decide +kernel
  · rw [hrecords]; decide +kernel
  · rw [herror]; decide +kernel

end DeviceTrace
