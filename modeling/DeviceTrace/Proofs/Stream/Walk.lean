import DeviceTrace.Proofs.Bytes.Words
import DeviceTrace.Stream.Records

/-!
# What a walk over a stream finds

Whether bytes are a record can be told from these bytes alone, wherever they lie. A stream is
therefore its records one after the other and then a rest that no record begins, and a walk over
records laid out one after the other finds exactly these and ends without an error.
-/

namespace DeviceTrace

/-- A whole record: a header, and as many bytes as the header states. -/
structure Bytes.IsRecord (bytes : Bytes) : Prop where
  header : headerSize ≤ bytes.length
  aligned : bytes.length % recordAlign = 0
  stated : bytes.wordAt 4 4 = bytes.length

theorem Bytes.IsRecord.length_pos {bytes : Bytes} (h : bytes.IsRecord) : 0 < bytes.length :=
  Nat.lt_of_lt_of_le (by decide) h.header

/-! ## One record -/

theorem scanFront_append {bytes : Bytes} (h : bytes.IsRecord) (offset : Nat) (rest : Bytes) :
    scanFront offset (bytes ++ rest) = .record ⟨offset, bytes⟩ := by
  obtain ⟨hheader, haligned, hstated⟩ := h
  have hword : Bytes.wordAt (bytes.take headerSize) 4 4 = bytes.length := by
    rw [Bytes.wordAt_take (by decide) hheader, hstated]
  unfold scanFront
  simp only [List.take_append_of_le_length hheader, hword]
  rw [if_neg (by simp only [List.length_take]; omega), if_neg (by simp [haligned]; omega),
    if_neg (by simp), List.take_left']
  rfl

theorem Bytes.IsRecord.parse? {bytes : Bytes} (h : bytes.IsRecord) :
    RecordView.parse? bytes 0 = some ⟨0, bytes⟩ := by
  have hscan := scanFront_append h 0 []
  rw [List.append_nil] at hscan
  rw [RecordView.parse?, scanAt, List.drop_zero, hscan]

theorem isRecord_of_scanFront {offset : Nat} {rest : Bytes} {view : RecordView}
    (h : scanFront offset rest = .record view) : view.bytes.IsRecord := by
  unfold scanFront at h
  dsimp only at h
  split at h
  · cases h
  split at h
  · cases h
  split at h
  · cases h
  rename_i hhead hsize hlen
  injection h with h
  subst h
  have hheader : headerSize ≤ rest.length := by
    simp only [List.length_take] at hhead; omega
  rw [Bytes.wordAt_take (by decide) hheader] at hsize hlen ⊢
  simp only [Bool.or_eq_true, decide_eq_true_eq, not_or, bne_iff_ne, ne_eq,
    Decidable.not_not] at hsize
  have hlength : (rest.take (rest.wordAt 4 4)).length = rest.wordAt 4 4 := by
    simp only [List.length_take] at hlen ⊢; omega
  have hword : Bytes.wordAt (rest.take (rest.wordAt 4 4)) 4 4 = rest.wordAt 4 4 :=
    Bytes.wordAt_take (Nat.le_trans (by decide) (Nat.not_lt.mp hsize.1))
      (by simp only [List.length_take] at hlen; omega)
  exact ⟨by rw [hlength]; exact Nat.not_lt.mp hsize.1, by rw [hlength]; exact hsize.2,
    by rw [hlength, hword]⟩

/-- No record begins these bytes. -/
def Bytes.StartsNoRecord (bytes : Bytes) : Prop :=
  ∀ offset view, scanFront offset bytes ≠ .record view

/-! ## Records one after the other -/

/-- The views of some records that lie one after the other from `offset` on. -/
def viewsAt : Nat → List Bytes → List RecordView
  | _, [] => []
  | offset, bytes :: rest => ⟨offset, bytes⟩ :: viewsAt (offset + bytes.length) rest

@[simp] theorem map_bytes_viewsAt (offset : Nat) (chunks : List Bytes) :
    (viewsAt offset chunks).map RecordView.bytes = chunks := by
  induction chunks generalizing offset with
  | nil => rfl
  | cons bytes chunks ih => simp [viewsAt, ih]

namespace Records

theorem run_record {r : Records} {view : RecordView} (hopen : r.exhausted = false)
    (h : scanFront r.position r.rest = .record view) :
    r.run = (view :: (run { r with rest := r.rest.drop view.size, position := view.stop }).1,
      (run { r with rest := r.rest.drop view.size, position := view.stop }).2) := by
  have hnext : r.next =
      (some view, { r with rest := r.rest.drop view.size, position := view.stop }) := by
    simp [next, hopen, h]
  rw [run]
  split
  · rename_i hsome
    rw [hnext] at hsome
    obtain ⟨rfl, rfl⟩ := by simpa using hsome
    rfl
  · rename_i hnone
    rw [hnext] at hnone
    simp at hnone

/-- A reader walks over the records in front of it and goes on behind them. -/
theorem run_flatten {chunks : List Bytes} (h : ∀ bytes ∈ chunks, bytes.IsRecord) (rest : Bytes)
    (offset : Nat) :
    run { rest := chunks.flatten ++ rest, position := offset } =
      (viewsAt offset chunks ++
          (run { rest := rest, position := offset + chunks.flatten.length }).1,
        (run { rest := rest, position := offset + chunks.flatten.length }).2) := by
  induction chunks generalizing offset with
  | nil => simp [viewsAt]
  | cons bytes chunks ih =>
    have hscan := scanFront_append (h bytes (by simp)) offset (chunks.flatten ++ rest)
    rw [run_record rfl (by simpa using hscan)]
    simp [viewsAt, RecordView.size, RecordView.stop, Nat.add_assoc,
      ih (fun b hb => h b (by simp [hb]))]

theorem run_stopped {rest : Bytes} (h : rest.StartsNoRecord) (offset : Nat) :
    run { rest := rest, position := offset } =
      ([], { rest := rest, position := offset, exhausted := true,
             error := match scanFront offset rest with
               | .corrupt offset => some (.corruptRecord offset)
               | _ => none }) := by
  rw [run]
  cases hscan : scanFront offset rest with
  | record view => exact absurd hscan (h offset view)
  | finished | corrupt _ =>
    split
    all_goals
      rename_i hnext
      simp [next, hscan] at hnext
    exact congrArg _ hnext.symm

end Records

/-! ## A whole stream -/

/-- A stream in the parts that a walk over it sees: its records, and a rest that no record begins.
-/
structure Bytes.Splits (bytes : Bytes) (chunks : List Bytes) (rest : Bytes) : Prop where
  append : bytes = chunks.flatten ++ rest
  records : ∀ chunk ∈ chunks, Bytes.IsRecord chunk
  stops : rest.StartsNoRecord

theorem Bytes.exists_splits (bytes : Bytes) : ∃ chunks rest, bytes.Splits chunks rest := by
  induction hn : bytes.length using Nat.strongRecOn generalizing bytes with
  | _ n ih =>
    by_cases h : bytes.StartsNoRecord
    · exact ⟨[], bytes, rfl, by simp, h⟩
    obtain ⟨offset, view, hscan⟩ : ∃ offset view, scanFront offset bytes = .record view := by
      simpa [Bytes.StartsNoRecord] using h
    have hrecord := isRecord_of_scanFront hscan
    obtain ⟨-, hbytes, -, hle⟩ := scanFront_record hscan
    obtain ⟨chunks, rest, happend, hchunks, hrest⟩ := ih (bytes.drop view.size).length
      (by have := hrecord.length_pos; simp only [List.length_drop, RecordView.size] at *; omega)
      (bytes.drop view.size) rfl
    refine ⟨view.bytes :: chunks, rest, ?_, by simpa using ⟨hrecord, hchunks⟩, hrest⟩
    rw [List.flatten_cons, List.append_assoc, ← happend, hbytes, List.take_append_drop]

namespace Bytes.Splits

variable {bytes rest : Bytes} {chunks : List Bytes}

theorem run_eq (h : bytes.Splits chunks rest) :
    (Records.ofBytes bytes).run =
      (viewsAt 0 chunks,
        { rest := rest, position := chunks.flatten.length, exhausted := true,
          error := match scanFront chunks.flatten.length rest with
            | .corrupt offset => some (.corruptRecord offset)
            | _ => none }) := by
  rw [Records.ofBytes, h.append, Records.run_flatten h.records, Records.run_stopped h.stops]
  simp

theorem records_eq (h : bytes.Splits chunks rest) : DeviceTrace.records bytes = viewsAt 0 chunks :=
  congrArg Prod.fst h.run_eq

theorem position_eq (h : bytes.Splits chunks rest) :
    (recordsEnd bytes).position = chunks.flatten.length :=
  congrArg (fun run => run.2.position) h.run_eq

theorem walkError_eq (h : bytes.Splits chunks rest) :
    walkError bytes = match scanFront chunks.flatten.length rest with
      | .corrupt offset => some (.corruptRecord offset)
      | _ => none :=
  congrArg (fun run => run.2.error) h.run_eq

end Bytes.Splits

theorem startsNoRecord_nil : Bytes.StartsNoRecord [] := by
  intro offset view h
  have := (isRecord_of_scanFront h).length_pos
  have := (scanFront_record h).2.2.2
  simp only [RecordView.size, List.length_nil] at this
  omega

/-- Records laid out one after the other are a stream of just these. -/
theorem splits_flatten {chunks : List Bytes} (h : ∀ bytes ∈ chunks, Bytes.IsRecord bytes) :
    Bytes.Splits chunks.flatten chunks [] :=
  ⟨by simp, h, startsNoRecord_nil⟩

/-- The walk over a stream ends with an error exactly if a corrupt header lies where it stops. -/
theorem walkError_eq_scanAt (bytes : Bytes) :
    walkError bytes = match scanAt bytes (recordsEnd bytes).position with
      | .corrupt offset => some (.corruptRecord offset)
      | _ => none := by
  obtain ⟨chunks, rest, h⟩ := bytes.exists_splits
  rw [h.walkError_eq, h.position_eq, scanAt, h.append, List.drop_left]

end DeviceTrace
