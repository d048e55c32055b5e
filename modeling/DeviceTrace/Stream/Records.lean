import DeviceTrace.Stream.Scan

/-!
# Reading a stream from its start

`Records` is a reader that hands out one record at a time and remembers how the stream ended.
`records` lists everything that the reader hands out, and `walkError` is how the walk ends.
-/

namespace DeviceTrace

structure Records where
  /-- The bytes after the last record. -/
  rest : Bytes
  /-- The offset just past the last record. -/
  position : Nat := 0
  exhausted : Bool := false
  error : Option TraceError := none
  deriving DecidableEq, Repr

namespace Records

def ofBytes (bytes : Bytes) : Records := { rest := bytes }

def next (r : Records) : Option RecordView × Records :=
  if r.exhausted then (none, r)
  else match scanFront r.position r.rest with
    | .record view =>
      (some view, { r with rest := r.rest.drop view.size, position := view.stop })
    | .finished => (none, { r with exhausted := true })
    | .corrupt offset => (none, { r with exhausted := true, error := some (.corruptRecord offset) })

theorem rest_lt_of_next {r r' : Records} {view : RecordView} (h : r.next = (some view, r')) :
    r'.rest.length < r.rest.length := by
  unfold next at h
  split at h
  · simp at h
  split at h
  · rename_i hs
    obtain ⟨_, _, hsize, hle⟩ := scanFront_record hs
    simp only [Prod.mk.injEq, Option.some.injEq] at h
    obtain ⟨rfl, rfl⟩ := h
    simp only [List.length_drop, headerSize] at *
    omega
  · simp at h
  · simp at h

/-- All remaining records, and the reader after the last one. -/
def run (r : Records) : List RecordView × Records :=
  match _h : r.next with
  | (some view, r') =>
    let (views, last) := r'.run
    (view :: views, last)
  | (none, r') => ([], r')
  termination_by r.rest.length
  decreasing_by exact rest_lt_of_next _h

end Records

/-- The records of a stream, in order. -/
def records (bytes : Bytes) : List RecordView := (Records.ofBytes bytes).run.1

/-- The reader at the end of a stream. -/
def recordsEnd (bytes : Bytes) : Records := (Records.ofBytes bytes).run.2

/-- Why a walk over a stream stops early, none if it reaches the regular end. -/
def walkError (bytes : Bytes) : Option TraceError := (recordsEnd bytes).error

end DeviceTrace
