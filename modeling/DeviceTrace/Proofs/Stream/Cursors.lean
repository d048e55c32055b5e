import DeviceTrace.Proofs.Stream.Segments
import DeviceTrace.Stream.Cursor

/-!
# Cursors and readers go the same way

A cursor is moved by looking at the bytes under it and nothing else, while a reader keeps the rest
of the stream and remembers that it has ended. The cursor visits the records that the reader hands
out, one step for each, and both stop at the same place: where no bytes are left for a header, or
where a header lies that no record can have.
-/

namespace DeviceTrace

def RecordView.cursor (v : RecordView) : Cursor := ⟨v.offset⟩

/-- Where repeated advancing comes to, beginning in front of the first record. -/
def cursorAt? (buffer : Bytes) (valid : Nat) : Nat → Option Cursor
  | 0 => advance? buffer valid none
  | k + 1 => (cursorAt? buffer valid k).bind fun cursor => advance? buffer valid (some cursor)

/-- A reader that has been asked for a record a number of times. -/
def Records.after (r : Records) : Nat → Records
  | 0 => r
  | k + 1 => r.next.2.after k

/-- A whole header lies at the offset, and states a length that no record there can have. -/
structure Bytes.CorruptAt (bytes : Bytes) (offset : Nat) : Prop where
  header : offset + headerSize ≤ bytes.length
  stated : bytes.wordAt (offset + 4) 4 < headerSize ∨
    bytes.wordAt (offset + 4) 4 % recordAlign ≠ 0 ∨
    bytes.length < offset + bytes.wordAt (offset + 4) 4

/-! ## The three things that lie at a place -/

theorem scanFront_eq (offset : Nat) (rest : Bytes) :
    scanFront offset rest =
      if rest.length < headerSize then .finished
      else if rest.wordAt 4 4 < headerSize ∨ rest.wordAt 4 4 % recordAlign ≠ 0 ∨
        rest.length < rest.wordAt 4 4 then .corrupt offset
      else .record ⟨offset, rest.take (rest.wordAt 4 4)⟩ := by
  have hlength : (rest.take headerSize).length < headerSize ↔ rest.length < headerSize := by
    rw [List.length_take]; omega
  unfold scanFront
  simp only [hlength]
  split
  · rfl
  · rename_i hheader
    have hlong : (rest.take (rest.wordAt 4 4)).length < rest.wordAt 4 4 ↔
        rest.length < rest.wordAt 4 4 := by
      rw [List.length_take]; omega
    rw [Bytes.wordAt_take (by decide) (Nat.le_of_not_lt hheader)]
    simp only [hlong, Bool.or_eq_true, decide_eq_true_eq, bne_iff_ne]
    -- the code asks for a bad length and for a cut record one after the other
    by_cases hstated : rest.wordAt 4 4 < headerSize ∨ rest.wordAt 4 4 % recordAlign ≠ 0
    · rw [if_pos hstated, if_pos (by tauto)]
    · rw [if_neg hstated]
      split
      · rw [if_pos (by tauto)]
      · rw [if_neg (by tauto)]

/-- Where no record lies, no header lies either or it states a length that no record can have. -/
theorem scanAt_cases (bytes : Bytes) (offset : Nat) :
    (bytes.length < offset + headerSize ∧ scanAt bytes offset = .finished) ∨
      (bytes.CorruptAt offset ∧ scanAt bytes offset = .corrupt offset) ∨
      ∃ view, scanAt bytes offset = .record view := by
  rw [scanAt, scanFront_eq, List.length_drop, headerSize]
  by_cases hheader : bytes.length - offset < 8
  · exact .inl ⟨by omega, if_pos hheader⟩
  · refine .inr ?_
    rw [if_neg hheader, Bytes.wordAt_drop (by omega)]
    split
    · rename_i hstated
      exact .inl ⟨⟨by rw [headerSize]; omega, by rw [headerSize]; omega⟩, rfl⟩
    · exact .inr ⟨_, rfl⟩

theorem RecordView.parse?_eq_some {bytes : Bytes} {offset : Nat} {view : RecordView}
    (h : parse? bytes offset = some view) :
    view.offset = offset ∧ view.bytes.IsRecord ∧ view.stop ≤ bytes.length := by
  unfold parse? at h
  split at h
  · rename_i hscan
    cases h
    rw [scanAt] at hscan
    obtain ⟨hoffset, -, hsize, hle⟩ := scanFront_record hscan
    rw [List.length_drop] at hle
    rw [headerSize] at hsize
    exact ⟨hoffset, isRecord_of_scanFront hscan, by rw [stop, hoffset]; omega⟩
  · cases h
  · cases h

/-! ## Places of records -/

theorem getElem?_viewsAt (offset : Nat) (chunks : List Bytes) (k : Nat) :
    (viewsAt offset chunks)[k]? =
      chunks[k]?.map fun bytes => ⟨offset + (chunks.take k).flatten.length, bytes⟩ := by
  induction chunks generalizing offset k with
  | nil => rfl
  | cons bytes chunks ih =>
    cases k with
    | zero => rfl
    | succ k => simp [viewsAt, ih, Nat.add_assoc]

/-- Behind the first `k` records of a stream lies the next one, or nothing that is a record. -/
theorem Bytes.Splits.parse?_eq {bytes rest : Bytes} {chunks : List Bytes}
    (h : bytes.Splits chunks rest) {k : Nat} (hk : k ≤ chunks.length) :
    RecordView.parse? bytes (chunks.take k).flatten.length =
      (DeviceTrace.records bytes)[k]? := by
  have hdrop : bytes.drop (chunks.take k).flatten.length = (chunks.drop k).flatten ++ rest := by
    conv_lhs => rw [h.append, ← List.take_append_drop k chunks, List.flatten_append,
      List.append_assoc]
    rw [List.take_append_drop, List.drop_left]
  rw [h.records_eq, getElem?_viewsAt, RecordView.parse?, scanAt, hdrop]
  rcases Nat.lt_or_eq_of_le hk with hlt | rfl
  · rw [List.drop_eq_getElem_cons hlt, List.flatten_cons, List.append_assoc,
      scanFront_append (h.records _ (List.getElem_mem hlt)), List.getElem?_eq_getElem hlt]
    simp
  · rw [List.drop_length, List.flatten_nil, List.nil_append, List.getElem?_eq_none le_rfl]
    split
    · rename_i hscan
      exact absurd hscan (h.stops _ _)
    · rfl
    · rfl

/-- Where a walk has come to its end lies no record. -/
theorem parse?_position (bytes : Bytes) :
    RecordView.parse? bytes (recordsEnd bytes).position = none := by
  obtain ⟨chunks, rest, h⟩ := bytes.exists_splits
  have hnone := h.parse?_eq le_rfl
  rw [List.take_length, h.records_eq, getElem?_viewsAt, List.getElem?_eq_none le_rfl] at hnone
  rw [h.position_eq]
  exact hnone

/-- A walk ends at a header that no record can have, or where no bytes are left for a header. -/
theorem walkError_cases (bytes : Bytes) :
    let stop := (recordsEnd bytes).position
    (bytes.CorruptAt stop ∧ walkError bytes = some (.corruptRecord stop)) ∨
      (bytes.length < stop + headerSize ∧ walkError bytes = none) := by
  intro stop
  have hnone : RecordView.parse? bytes stop = none := parse?_position bytes
  rw [walkError_eq_scanAt]
  rcases scanAt_cases bytes stop with ⟨hshort, hscan⟩ | ⟨hcorrupt, hscan⟩ | ⟨view, hscan⟩
  · exact .inr ⟨hshort, by rw [hscan]⟩
  · exact .inl ⟨hcorrupt, by rw [hscan]⟩
  · rw [RecordView.parse?, hscan] at hnone
    cases hnone

theorem parse?_zero (bytes : Bytes) : RecordView.parse? bytes 0 = (records bytes)[0]? := by
  obtain ⟨chunks, rest, h⟩ := bytes.exists_splits
  exact h.parse?_eq (Nat.zero_le _)

/-- At the place of a record of the stream this record is found, and behind it the next one. -/
theorem parse?_of_getElem? {bytes : Bytes} {k : Nat} {view : RecordView}
    (h : (records bytes)[k]? = some view) :
    RecordView.parse? bytes view.offset = some view ∧
      RecordView.parse? bytes view.stop = (records bytes)[k + 1]? := by
  obtain ⟨chunks, rest, hsplits⟩ := bytes.exists_splits
  have hview := h
  rw [hsplits.records_eq, getElem?_viewsAt] at hview
  obtain ⟨chunk, hchunk, rfl⟩ := Option.map_eq_some_iff.mp hview
  obtain ⟨hk, rfl⟩ := List.getElem?_eq_some_iff.mp hchunk
  have hstop : (chunks.take (k + 1)).flatten.length =
      (chunks.take k).flatten.length + chunks[k].length := by
    rw [List.take_add_one, hchunk, List.flatten_append, List.length_append]
    simp
  have hhere := hsplits.parse?_eq hk.le
  have hbehind := hsplits.parse?_eq (Nat.succ_le_of_lt hk)
  rw [hstop] at hbehind
  rw [Nat.zero_add] at h ⊢
  exact ⟨hhere.trans h, hbehind⟩

/-- Every record takes at least a header, and is aligned as all records before it are. -/
theorem offset_of_getElem? {bytes : Bytes} {k : Nat} {view : RecordView}
    (h : (records bytes)[k]? = some view) :
    headerSize * k ≤ view.offset ∧ view.offset % recordAlign = 0 := by
  induction k generalizing view with
  | zero =>
    obtain ⟨hoffset, -, -⟩ := RecordView.parse?_eq_some ((parse?_zero bytes).trans h)
    simp [hoffset]
  | succ k ih =>
    obtain ⟨hk, -⟩ := List.getElem?_eq_some_iff.mp h
    have hprevious := List.getElem?_eq_getElem (Nat.lt_of_succ_lt hk)
    obtain ⟨hle, haligned⟩ := ih hprevious
    obtain ⟨hat, hbehind⟩ := parse?_of_getElem? hprevious
    obtain ⟨-, hrecord, -⟩ := RecordView.parse?_eq_some hat
    obtain ⟨hoffset, -, -⟩ := RecordView.parse?_eq_some (hbehind.trans h)
    have hheader := hrecord.header
    have hsize := hrecord.aligned
    rw [RecordView.stop, RecordView.size] at hoffset
    simp only [headerSize, recordAlign] at *
    omega

theorem length_records_le (bytes : Bytes) : (records bytes).length ≤ bytes.length / headerSize := by
  cases hviews : (records bytes).length with
  | zero => exact Nat.zero_le _
  | succ k =>
    have hlast := List.getElem?_eq_getElem (l := records bytes) (i := k) (by omega)
    obtain ⟨hle, -⟩ := offset_of_getElem? hlast
    obtain ⟨-, hrecord, hstop⟩ := RecordView.parse?_eq_some (parse?_of_getElem? hlast).1
    have hheader := hrecord.header
    rw [RecordView.stop, RecordView.size] at hstop
    rw [Nat.le_div_iff_mul_le (by decide)]
    simp only [headerSize] at *
    omega

/-! ## Asking a reader again and again -/

namespace Records

variable {r r' : Records} {view : RecordView}

theorem run_of_next (h : r.next = (some view, r')) : r.run = (view :: r'.run.1, r'.run.2) := by
  rw [run]
  split
  · rename_i hnext
    obtain ⟨hview, rfl⟩ := Prod.mk.inj (h.symm.trans hnext)
    cases hview
    rfl
  · rename_i hnext
    cases (Prod.mk.inj (h.symm.trans hnext)).1

theorem run_of_next_none (h : r.next = (none, r')) : r.run = ([], r') := by
  rw [run]
  split
  · rename_i hnext
    cases (Prod.mk.inj (h.symm.trans hnext)).1
  · rename_i hnext
    obtain ⟨-, rfl⟩ := Prod.mk.inj (h.symm.trans hnext)
    rfl

theorem position_of_next (h : r.next = (some view, r')) : r'.position = view.stop := by
  unfold next at h
  split at h
  · cases (Prod.mk.inj h).1
  split at h
  · obtain ⟨hview, rfl⟩ := Prod.mk.inj h
    cases hview
    rfl
  · cases (Prod.mk.inj h).1
  · cases (Prod.mk.inj h).1

theorem exhausted_of_next_none (h : r.next = (none, r')) :
    r'.exhausted = true ∧ r'.position = r.position := by
  unfold next at h
  split at h
  · obtain ⟨-, rfl⟩ := Prod.mk.inj h
    exact ⟨‹_›, rfl⟩
  split at h
  · cases (Prod.mk.inj h).1
  · obtain ⟨-, rfl⟩ := Prod.mk.inj h
    exact ⟨rfl, rfl⟩
  · obtain ⟨-, rfl⟩ := Prod.mk.inj h
    exact ⟨rfl, rfl⟩

/-- A reader that had no record to hand out has none ever after. -/
theorem next_of_next_none (h : r.next = (none, r')) : r'.next = (none, r') := by
  rw [next, if_pos (exhausted_of_next_none h).1]

theorem next_after (r : Records) (k : Nat) : (r.after k).next.1 = r.run.1[k]? := by
  induction k generalizing r with
  | zero =>
    cases hnext : r.next with
    | mk answer r' =>
      cases answer with
      | none => simp [after, hnext, run_of_next_none hnext]
      | some view => simp [after, hnext, run_of_next hnext]
  | succ k ih =>
    cases hnext : r.next with
    | mk answer r' =>
      cases answer with
      | none =>
        have hempty := run_of_next_none (next_of_next_none hnext)
        simp [after, hnext, ih, hempty, run_of_next_none hnext]
      | some view => simp [after, hnext, ih, run_of_next hnext]

theorem after_of_length_lt (r : Records) {k : Nat} (h : r.run.1.length < k) :
    r.after k = r.run.2 := by
  induction k generalizing r with
  | zero => omega
  | succ k ih =>
    cases hnext : r.next with
    | mk answer r' =>
      cases answer with
      | some view =>
        rw [run_of_next hnext] at h ⊢
        rw [after, hnext]
        exact ih r' (by simpa using h)
      | none =>
        have hagain := next_of_next_none hnext
        rw [run_of_next_none hnext, after, hnext]
        cases k with
        | zero => rfl
        | succ k => rw [ih r' (by simp [run_of_next_none hagain]), run_of_next_none hagain]

/-- Where a reader comes to its end is where the last of its records stops. -/
theorem position_run (r : Records) :
    r.run.2.position = (r.run.1.getLast?.map RecordView.stop).getD r.position := by
  induction r using run.induct with
  | case1 r view r' hnext views last hrun ih =>
    rw [run_of_next hnext, List.getLast?_cons]
    change r'.run.2.position = _
    rw [ih, position_of_next hnext]
    cases r'.run.1.getLast? <;> rfl
  | case2 r r' hnext =>
    rw [run_of_next_none hnext]
    exact (exhausted_of_next_none hnext).2

end Records

/-! ## Both walks -/

theorem advance?_none (buffer : Bytes) (valid : Nat) :
    advance? buffer valid none =
      (records (validRegion buffer valid))[0]?.map RecordView.cursor := by
  rw [← parse?_zero]
  cases hview : RecordView.parse? (validRegion buffer valid) 0 <;>
    simp [advance?, recordAt?, hview, RecordView.cursor]

theorem advance?_cursor {buffer : Bytes} {valid k : Nat} {view : RecordView}
    (h : (records (validRegion buffer valid))[k]? = some view) :
    advance? buffer valid (some view.cursor) =
      (records (validRegion buffer valid))[k + 1]?.map RecordView.cursor := by
  obtain ⟨hat, hbehind⟩ := parse?_of_getElem? h
  rw [← hbehind]
  cases hnext : RecordView.parse? (validRegion buffer valid) view.stop <;>
    simp [advance?, recordAt?, RecordView.cursor, hat, hnext]

theorem cursorAt?_eq (buffer : Bytes) (valid k : Nat) :
    cursorAt? buffer valid k =
      (records (validRegion buffer valid))[k]?.map RecordView.cursor := by
  induction k with
  | zero => exact advance?_none buffer valid
  | succ k ih =>
    rw [cursorAt?, ih]
    cases hview : (records (validRegion buffer valid))[k]? with
    | none =>
      rw [List.getElem?_eq_none_iff] at hview
      rw [List.getElem?_eq_none (by omega)]
      rfl
    | some view => exact advance?_cursor hview

/-- Let a buffer have any number of valid bytes, also more than it is long. Advancing comes to the
records of the valid region one by one: the first lies at 0 and each next one where the one before
it stops, on multiples of 8, and a cursor tells of the record under it and whether there is another
one. A reader hands out the same records, and nothing ever after. It then stands where the last
record stops, with an error exactly if a header lies there that no record can have, and otherwise in
front of too few bytes for a header. -/
theorem advance_visits_records (buffer : Bytes) (valid : Nat) :
    let region := validRegion buffer valid
    let views := records region
    let last := recordsEnd region
    region = buffer.take (min valid buffer.length) ∧
      (∀ k, cursorAt? buffer valid k = views[k]?.map RecordView.cursor) ∧
      (∀ view ∈ views[0]?, view.offset = 0) ∧
      (∀ k, ∀ view ∈ views[k]?, ∀ next ∈ views[k + 1]?, next.offset = view.stop) ∧
      (∀ view ∈ views, view.offset % 8 = 0) ∧
      views.length ≤ min valid buffer.length / 8 ∧
      hasNext buffer valid none = views[0]?.isSome ∧
      (∀ k, ∀ view ∈ views[k]?, hasNext buffer valid (some view.cursor) = views[k + 1]?.isSome ∧
        recordAt? buffer valid view.cursor = some view ∧
        recordTypeAt buffer valid view.cursor = view.type) ∧
      (∀ k, ((Records.ofBytes region).after k).next.1 = views[k]?) ∧
      (∀ k, views.length < k → (Records.ofBytes region).after k = last) ∧
      last.position = (views.getLast?.map RecordView.stop).getD 0 ∧
      (last.error = some (.corruptRecord last.position) ↔ region.CorruptAt last.position) ∧
      (¬ region.CorruptAt last.position →
        last.error = none ∧ region.length < last.position + headerSize) := by
  intro region views last
  have hlength : region.length = min valid buffer.length := List.length_take
  refine ⟨?region, cursorAt?_eq buffer valid, ?first, ?next, ?aligned, ?count, ?start, ?here,
    Records.next_after _, fun k hk => Records.after_of_length_lt _ hk, Records.position_run _,
    ?corrupt, ?clean⟩
  case region =>
    exact List.take_eq_take_min
  case first =>
    intro view hview
    exact (RecordView.parse?_eq_some ((parse?_zero region).trans hview)).1
  case next =>
    intro k view hview next hnext
    exact (RecordView.parse?_eq_some ((parse?_of_getElem? hview).2.trans hnext)).1
  case aligned =>
    intro view hview
    obtain ⟨k, hk⟩ := List.mem_iff_getElem?.mp hview
    exact (offset_of_getElem? hk).2
  case count =>
    rw [← hlength]
    exact length_records_le region
  case start =>
    rw [hasNext, advance?_none, Option.isSome_map]
  case here =>
    intro k view hview
    have hat : recordAt? buffer valid view.cursor = some view := (parse?_of_getElem? hview).1
    refine ⟨?_, hat, by rw [recordTypeAt, hat]⟩
    rw [hasNext, advance?_cursor hview, Option.isSome_map]
  case corrupt =>
    rcases walkError_cases region with ⟨hcorrupt, herror⟩ | ⟨hshort, herror⟩
    · exact iff_of_true herror hcorrupt
    · refine iff_of_false (fun h => ?_) fun h => absurd h.header (Nat.not_le_of_lt hshort)
      cases herror.symm.trans h
  case clean =>
    intro hclean
    rcases walkError_cases region with ⟨hcorrupt, -⟩ | ⟨hshort, herror⟩
    · exact absurd hcorrupt hclean
    · exact ⟨herror, hshort⟩

end DeviceTrace
