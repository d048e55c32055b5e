import DeviceTrace.Buffer
import DeviceTrace.Proofs.Record.RoundTrip

/-!
# Filling a buffer

A producer appends records to a buffer, says how many bytes are valid and writes where it likes
inside the allocation. The valid bytes never outgrow the allocation, and a record is appended in one
piece behind them or not at all. So the records that fit are what is read from a buffer that has
only been appended to, also if others in between did not fit.
-/

namespace DeviceTrace
namespace TraceBuffer

/-- A buffer as it is allocated. -/
def fresh (capacity : Nat) : TraceBuffer := ⟨.zeros capacity, 0⟩

/-- What a producer does to a buffer. -/
inductive Change
  | append (record : Bytes)
  | markValid (n : Nat)
  | write (offset : Nat) (raw : Bytes)

def change (b : TraceBuffer) : Change → TraceBuffer
  | .append record => (b.append record).2
  | .markValid n => b.markValid n
  | .write offset raw => b.write offset raw

/-- Appends some records one after the other and says of each whether it fit. -/
def appendAll (b : TraceBuffer) : List Bytes → List Bool × TraceBuffer
  | [] => ([], b)
  | record :: records =>
    let (fits, b) := b.append record
    let (answers, b) := b.appendAll records
    (fits :: answers, b)

/-- The records that fit, by the answers. -/
def accepted (records : List Bytes) (answers : List Bool) : List Bytes :=
  ((records.zip answers).filter (·.2)).map (·.1)

variable {b : TraceBuffer} {record : Bytes}

/-! ## One record -/

theorem append_fits (h : b.validSize + record.length ≤ b.capacity) :
    b.append record =
      (true, ⟨b.bytes.overwrite b.validSize record, b.validSize + record.length⟩) :=
  if_pos h

theorem append_refused (h : ¬b.validSize + record.length ≤ b.capacity) :
    b.append record = (false, b) :=
  if_neg h

theorem append_eq_true_iff :
    (b.append record).1 = true ↔ b.validSize + record.length ≤ b.capacity := by
  by_cases h : b.validSize + record.length ≤ b.capacity
  · rw [append_fits h]
    exact iff_of_true rfl h
  · rw [append_refused h]
    exact iff_of_false Bool.false_ne_true h

theorem validBytes_append (h : b.validSize + record.length ≤ b.capacity) :
    (b.append record).2.validBytes = b.validBytes ++ record := by
  have hfront : (b.bytes.take b.validSize).length = b.validSize := by
    rw [List.length_take]
    unfold capacity at h
    omega
  have hbytes : b.bytes.overwrite b.validSize record = b.bytes.take b.validSize ++ record ++
      b.bytes.drop (b.validSize + record.length) := if_pos h
  rw [append_fits h, validBytes, validBytes, hbytes, List.take_left']
  rw [List.length_append, hfront]

/-! ## Many changes -/

/-- The valid bytes lie inside an allocation of this size. -/
structure Within (b : TraceBuffer) (capacity : Nat) : Prop where
  size : b.capacity = capacity
  valid : b.validSize ≤ capacity

theorem within_fresh (capacity : Nat) : (fresh capacity).Within capacity :=
  ⟨Bytes.length_zeros capacity, Nat.zero_le capacity⟩

theorem Within.change {capacity : Nat} (hb : b.Within capacity) (c : Change) :
    (b.change c).Within capacity := by
  obtain ⟨rfl, hvalid⟩ := hb
  cases c with
  | append record =>
    by_cases h : b.validSize + record.length ≤ b.capacity
    · rw [TraceBuffer.change, append_fits h]
      exact ⟨Bytes.length_overwrite .., h⟩
    · rw [TraceBuffer.change, append_refused h]
      exact ⟨rfl, hvalid⟩
  | markValid n => exact ⟨rfl, Nat.min_le_right ..⟩
  | write offset raw => exact ⟨Bytes.length_overwrite .., hvalid⟩

theorem Within.changes {capacity : Nat} (hb : b.Within capacity) (changes : List Change) :
    (changes.foldl TraceBuffer.change b).Within capacity := by
  induction changes generalizing b with
  | nil => exact hb
  | cons c changes ih => exact ih (hb.change c)

/-! ## Records one after the other -/

theorem accepted_cons (record : Bytes) (records : List Bytes) (fits : Bool)
    (answers : List Bool) :
    accepted (record :: records) (fits :: answers) =
      (if fits then [record] else []) ++ accepted records answers := by
  cases fits <;> rfl

theorem validBytes_appendAll (b : TraceBuffer) (records : List Bytes) :
    (b.appendAll records).2.validBytes =
      b.validBytes ++ (accepted records (b.appendAll records).1).flatten := by
  induction records generalizing b with
  | nil => exact (List.append_nil _).symm
  | cons record records ih =>
    have hrest : (b.appendAll (record :: records)).2.validBytes =
        (b.append record).2.validBytes ++
          (accepted records ((b.append record).2.appendAll records).1).flatten :=
      ih (b.append record).2
    have haccepted : accepted (record :: records) (b.appendAll (record :: records)).1 =
        (if (b.append record).1 then [record] else []) ++
          accepted records ((b.append record).2.appendAll records).1 :=
      accepted_cons ..
    rw [hrest, haccepted, List.flatten_append, ← List.append_assoc]
    by_cases h : b.validSize + record.length ≤ b.capacity
    · rw [validBytes_append h, append_fits h]
      simp
    · rw [append_refused h]
      simp

theorem mem_of_mem_accepted {records : List Bytes} {answers : List Bool}
    (h : record ∈ accepted records answers) : record ∈ records := by
  obtain ⟨entry, hentry, rfl⟩ := List.mem_map.mp h
  exact (List.of_mem_zip (List.mem_filter.mp hentry).1).1

/-- Whatever a producer does to a buffer, its size stays and the valid bytes lie inside it. A record
is appended exactly if it fits behind the valid bytes; then it stands there, the valid bytes end
with it, and no other byte changes, and otherwise nothing changes at all. From a buffer that has
only been appended to, the whole records that fit are read in their order, and the walk ends without
an error. -/
theorem append_places_record (capacity : Nat) :
    (∀ changes : List Change,
      let b := changes.foldl change (fresh capacity)
      b.capacity = capacity ∧ b.validSize ≤ capacity ∧
        ∀ record,
          let after := (b.append record).2
          ((b.append record).1 = true ↔ b.validSize + record.length ≤ capacity) ∧
            ((b.append record).1 = true → after.validSize = b.validSize + record.length ∧
              ∀ i, after.bytes[i]? =
                if b.validSize ≤ i ∧ i < b.validSize + record.length then record[i - b.validSize]?
                else b.bytes[i]?) ∧
            ((b.append record).1 = false → after = b)) ∧
      ∀ records, (∀ record ∈ records, Bytes.IsRecord record) →
        let answers := ((fresh capacity).appendAll records).1
        let after := ((fresh capacity).appendAll records).2
        after.records.map RecordView.bytes = accepted records answers ∧
          walkError after.validBytes = none := by
  constructor
  · intro changes b
    obtain ⟨hsize, hvalid⟩ := (within_fresh capacity).changes changes
    refine ⟨hsize, hvalid, fun record => ⟨?_, fun hfits => ?_, fun hrefused => ?_⟩⟩
    · rw [append_eq_true_iff, hsize]
    · have h := append_eq_true_iff.mp hfits
      rw [append_fits h]
      exact ⟨rfl, Bytes.getElem?_overwrite h⟩
    · rw [append_refused fun h => Bool.eq_false_iff.mp hrefused (append_eq_true_iff.mpr h)]
  · intro records hrecords answers after
    have hvalid : after.validBytes = (accepted records answers).flatten :=
      validBytes_appendAll (fresh capacity) records
    have hsplits : Bytes.Splits after.validBytes (accepted records answers) [] :=
      hvalid ▸ splits_flatten fun record hrecord => hrecords record (mem_of_mem_accepted hrecord)
    refine ⟨?_, ?_⟩
    · rw [TraceBuffer.records, hsplits.records_eq, map_bytes_viewsAt]
    · rw [hsplits.walkError_eq]
      rfl

/-! A record of 16 bytes fits once into 24 bytes, and a bare header behind it. -/

theorem append_places_record_past_refused :
    let line : Bytes := (Record.sourceLocator ⟨1, 2⟩).encode
    let bare : Bytes := (Record.other .memset).encode
    let after := ((fresh 24).appendAll [line, line, bare]).2
    after.records.map RecordView.bytes = [line, bare] ∧ walkError after.validBytes = none ∧
      ((fresh 24).append line).1 = true ∧ after.append bare = (false, after) := by
  intro line bare after
  have hrecords : ∀ record ∈ [line, line, bare], Bytes.IsRecord record := by
    have hline : Bytes.IsRecord line := (Record.sourceLocator ⟨1, 2⟩).isRecord_encode
    have hbare : Bytes.IsRecord bare := (Record.other .memset).isRecord_encode
    simp [hline, hbare]
  obtain ⟨hchanged, happended⟩ := append_places_record 24
  obtain ⟨hread, herror⟩ := happended _ hrecords
  have haccepted : accepted [line, line, bare] ((fresh 24).appendAll [line, line, bare]).1 =
      [line, bare] := by decide +kernel
  obtain ⟨-, -, happend⟩ := hchanged []
  obtain ⟨-, -, hfull⟩ := hchanged [.append line, .append line, .append bare]
  obtain ⟨-, -, hrefused⟩ := hfull bare
  refine ⟨hread.trans haccepted, herror, (happend line).1.mpr (by decide +kernel), ?_⟩
  exact Prod.ext (by decide +kernel) (hrefused (by decide +kernel))

end TraceBuffer
end DeviceTrace
