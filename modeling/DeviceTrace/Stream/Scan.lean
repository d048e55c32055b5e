import DeviceTrace.Record.View

/-!
# The record at one place of a stream

A stream is a sequence of records without anything between them. At each place there is a whole
record, or too few bytes for another header, which is the regular end, or a header that no record
can have.
-/

namespace DeviceTrace

inductive Scan
  | record (view : RecordView)
  | finished
  | corrupt (offset : Nat)
  deriving DecidableEq, Repr

/-- The record that `rest` begins with, where `rest` lies at `offset` of its stream. -/
def scanFront (offset : Nat) (rest : Bytes) : Scan :=
  let header : Bytes := rest.take headerSize
  if header.length < headerSize then .finished
  else
    let size := header.wordAt 4 4
    if size < headerSize || size % recordAlign != 0 then .corrupt offset
    else
      let bytes := rest.take size
      if bytes.length < size then .corrupt offset else .record ⟨offset, bytes⟩

def scanAt (bytes : Bytes) (offset : Nat) : Scan := scanFront offset (bytes.drop offset)

/-- The record at an offset, if a whole one lies there. -/
def RecordView.parse? (bytes : Bytes) (offset : Nat) : Option RecordView :=
  match scanAt bytes offset with
  | .record view => some view
  | .finished | .corrupt _ => none

/-- A record is the front of the bytes that it was found in, and holds at least its header. -/
theorem scanFront_record {offset : Nat} {rest : Bytes} {view : RecordView}
    (h : scanFront offset rest = .record view) :
    view.offset = offset ∧ view.bytes = rest.take view.size ∧
      headerSize ≤ view.size ∧ view.size ≤ rest.length := by
  simp only [scanFront] at h
  split at h
  · cases h
  split at h
  · cases h
  split at h
  · cases h
  rename_i hsize hlen
  generalize Bytes.wordAt (rest.take headerSize) 4 4 = size at *
  injection h with h
  subst h
  simp only [Bool.or_eq_true, decide_eq_true_eq, not_or, Nat.not_lt, List.length_take] at hsize hlen
  simp only [RecordView.size, List.length_take, true_and]
  exact ⟨by rw [Nat.min_eq_left (by omega)], by omega, by omega⟩

end DeviceTrace
