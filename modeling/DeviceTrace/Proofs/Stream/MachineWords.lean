import DeviceTrace.Proofs.Stream.Cursors

/-!
# Cursors that count in machine words

Here the steps of a cursor are written with sums and places in machine words. Whatever bytes a
buffer holds, however many of them are said to be valid, and wherever a cursor points, none of the
steps ends in a fault, and they give what they give with natural numbers. A cursor only moves from a
record to the end of that record, and only if another record lies there within the valid bytes.
-/

namespace DeviceTrace

/-! ## Where cursors go -/

theorem RecordView.bytes_of_parse? {bytes : Bytes} {offset : Nat} {view : RecordView}
    (h : parse? bytes offset = some view) : view.bytes = (bytes.drop offset).take view.size := by
  unfold parse? at h
  split at h
  · rename_i hscan
    cases h
    exact (scanFront_record hscan).2.1
  · cases h
  · cases h

/-- A record under a cursor has the bytes of the buffer at its place, all of them valid. -/
theorem recordAt?_eq_some {buffer : Bytes} {valid : Nat} {cursor : Cursor} {view : RecordView}
    (h : recordAt? buffer valid cursor = some view) :
    view.offset = cursor.offset ∧ view.bytes = buffer.slice view.offset view.stop ∧
      view.bytes.IsRecord ∧ view.stop ≤ min valid buffer.length := by
  obtain ⟨hoffset, hrecord, hstop⟩ := RecordView.parse?_eq_some h
  have hbytes := RecordView.bytes_of_parse? h
  rw [validRegion, List.length_take] at hstop
  have hsize : view.stop - cursor.offset = view.size := by
    rw [RecordView.stop, hoffset, Nat.add_sub_cancel_left]
  refine ⟨hoffset, ?_, hrecord, hstop⟩
  rw [Bytes.slice, hoffset, hsize, hbytes, validRegion, List.drop_take, List.take_take]
  congr 1
  omega

theorem offset_advance?_none (buffer : Bytes) (valid : Nat) :
    (advance? buffer valid none).map Cursor.offset =
      (recordAt? buffer valid ⟨0⟩).map RecordView.offset := by
  rw [advance?]
  cases hview : recordAt? buffer valid ⟨0⟩ <;> simp [hview]

theorem offset_advance?_some (buffer : Bytes) (valid : Nat) (cursor : Cursor) :
    (advance? buffer valid (some cursor)).map Cursor.offset =
      (recordAt? buffer valid cursor).bind fun view =>
        (recordAt? buffer valid ⟨view.stop⟩).map RecordView.offset := by
  rw [advance?]
  cases hview : recordAt? buffer valid cursor with
  | none => rfl
  | some view =>
    cases hnext : recordAt? buffer valid ⟨view.stop⟩ <;> simp [hnext]

theorem advance?_eq_some {buffer : Bytes} {valid : Nat} {cursor next : Cursor}
    (h : advance? buffer valid (some cursor) = some next) :
    ∃ view after, recordAt? buffer valid cursor = some view ∧ next.offset = view.stop ∧
      recordAt? buffer valid next = some after := by
  have hoffset := offset_advance?_some buffer valid cursor
  rw [h, Option.map_some, eq_comm, Option.bind_eq_some_iff] at hoffset
  obtain ⟨view, hview, hnext⟩ := hoffset
  obtain ⟨after, hafter, hplace⟩ := Option.map_eq_some_iff.mp hnext
  have hstop : next.offset = view.stop := by rw [← hplace, (recordAt?_eq_some hafter).1]
  have hcursor : (⟨view.stop⟩ : Cursor) = next := by rw [← hstop]
  exact ⟨view, after, hview, hstop, hcursor ▸ hafter⟩

theorem recordTypeAt_ne_invalid_iff (buffer : Bytes) (valid : Nat) (cursor : Cursor) :
    recordTypeAt buffer valid cursor ≠ .invalid ↔ (recordAt? buffer valid cursor).isSome := by
  rw [recordTypeAt]
  cases recordAt? buffer valid cursor with
  | none => simp
  | some view =>
    refine iff_of_true ?_ rfl
    change view.type ≠ .invalid
    unfold RecordView.type
    split
    · exact RecordType.noConfusion
    · exact RecordType.noConfusion

/-- A reader hands out the record under the cursor. -/
theorem ContextReader.read_record (r : ContextReader) (buffer : Bytes) (valid : Nat)
    (cursor : Cursor) :
    (r.read buffer valid cursor).1.map Prod.fst = recordAt? buffer valid cursor := by
  rw [read]
  cases recordAt? buffer valid cursor with
  | none => rfl
  | some view => rfl

/-! ## The steps in machine words -/

namespace Machine

/-- The number in the first four bytes. -/
def word32 (bytes : Bytes) : Except Fault UInt32 := do
  let raw ← orFault .outOfRange (bytes.range? 0 4)
  return .ofNat raw.toNatLE

/-- The length that a header states. -/
def stated (header : Bytes) : Except Fault UInt64 := do
  let size ← word32 (← orFault .outOfRange (header.range? 4 8))
  return size.toUInt64

/-- The record at an offset, if bytes of this number lie there. -/
def recordOf (bytes : Bytes) (offset size : UInt64) : Except Fault Scan := do
  let stop ← orFault .overflow (sum? offset size)
  match bytes.range? offset stop with
  | some record => return .record ⟨offset.toNat, record⟩
  | none => return .corrupt offset.toNat

/-- A header that does not lie inside the bytes is the end of the stream, and so is one behind the
last offset that a word can hold. All other sums and places have to be right. -/
def scan (bytes : Bytes) (offset : UInt64) : Except Fault Scan :=
  match (sum? offset 8).bind (bytes.range? offset) with
  | none => .ok .finished
  | some header => do
    let size ← stated header
    if size < 8 || size % 8 != 0 then
      return .corrupt offset.toNat
    recordOf bytes offset size

def parse (bytes : Bytes) (offset : UInt64) : Except Fault (Option RecordView) := do
  match ← scan bytes offset with
  | .record view => return some view
  | .finished | .corrupt _ => return none

def region (buffer : Bytes) (valid : UInt64) : Except Fault Bytes :=
  orFault .outOfRange (buffer.range? 0 (min valid (.ofNat buffer.length)))

/-- The offset just past a record. -/
def stop (view : RecordView) : Except Fault UInt64 :=
  orFault .overflow (sum? (.ofNat view.offset) (.ofNat view.size))

def tag (view : RecordView) : Except Fault UInt32 := do
  word32 (← orFault .outOfRange (view.bytes.range? 0 4))

def recordAt (buffer : Bytes) (valid cursor : UInt64) : Except Fault (Option RecordView) := do
  parse (← region buffer valid) cursor

def typeAt (buffer : Bytes) (valid cursor : UInt64) : Except Fault RecordType := do
  match ← recordAt buffer valid cursor with
  | none => return .invalid
  | some view =>
    let tag ← tag view
    match Kind.ofCode? tag with
    | some kind => return .native kind
    | none => return .unknown tag

def read (r : ContextReader) (buffer : Bytes) (valid cursor : UInt64) :
    Except Fault (Option (RecordView × UInt64) × ContextReader) := do
  match ← recordAt buffer valid cursor with
  | none => return (none, r)
  | some view =>
    let tag ← tag view
    let r := if Kind.ofCode? tag = some .context then
      ⟨(ContextMark.contextOf view).toUInt64⟩ else r
    return (some (view, r.context), r)

/-- The cursor of the record at an offset, if one lies there. -/
def cursorAt (bytes : Bytes) (offset : UInt64) : Except Fault (Option UInt64) := do
  return (← parse bytes offset).map fun view => .ofNat view.offset

def advance (buffer : Bytes) (valid : UInt64) (current : Option UInt64) :
    Except Fault (Option UInt64) := do
  let bytes ← region buffer valid
  match current with
  | none => cursorAt bytes 0
  | some cursor =>
    match ← parse bytes cursor with
    | none => return none
    | some view => cursorAt bytes (← stop view)

/-! ## One place of a stream -/

theorem word32_eq {bytes : Bytes} (h : 4 ≤ bytes.length) :
    word32 bytes = .ok (.ofNat (bytes.wordAt 0 4)) := by
  have hrange : bytes.range? 0 4 = some (bytes.slice 0 4) := Bytes.range?_eq_some (by decide) h
  rw [word32, hrange, Bytes.wordAt, if_pos h]
  rfl

section

variable {bytes : Bytes} {offset : UInt64}

/-- No header lies behind the last bytes, nor behind the last offset. -/
theorem header_eq_none (h : bytes.length < offset.toNat + 8) :
    (sum? offset 8).bind (bytes.range? offset) = none := by
  by_cases hsum : offset.toNat + (8 : UInt64).toNat < 2 ^ 64
  · obtain ⟨hsum, hvalue⟩ := sum?_of_lt hsum
    rw [hsum]
    exact Bytes.range?_eq_none (hvalue ▸ h)
  · rw [sum?_eq_none (Nat.le_of_not_lt hsum)]
    rfl

theorem header_eq_some (h : offset.toNat + 8 ≤ bytes.length) (hbytes : bytes.length < 2 ^ 63) :
    (sum? offset 8).bind (bytes.range? offset) =
      some (bytes.slice offset.toNat (offset.toNat + 8)) := by
  have hfits : offset.toNat + (8 : UInt64).toNat < 2 ^ 64 := by
    change offset.toNat + 8 < _
    omega
  obtain ⟨hsum, hvalue⟩ := sum?_of_lt hfits
  have hvalue : (offset + 8).toNat = offset.toNat + 8 := hvalue
  rw [hsum, ← hvalue]
  exact Bytes.range?_eq_some (by omega) (by omega)

theorem stated_eq (h : offset.toNat + 8 ≤ bytes.length) :
    stated (bytes.slice offset.toNat (offset.toNat + 8)) =
      .ok (.ofNat (bytes.wordAt (offset.toNat + 4) 4)) := by
  have hlength : (bytes.slice offset.toNat (offset.toNat + 8)).length = 8 := by
    rw [Bytes.length_slice h, Nat.add_sub_cancel_left]
  have hrange : (bytes.slice offset.toNat (offset.toNat + 8)).range? 4 8 =
      some ((bytes.slice offset.toNat (offset.toNat + 8)).slice 4 8) :=
    Bytes.range?_eq_some (by decide) hlength.ge
  have hword : word32 ((bytes.slice offset.toNat (offset.toNat + 8)).slice 4 8) =
      .ok (.ofNat (bytes.wordAt (offset.toNat + 4) 4)) := by
    rw [word32_eq (by rw [Bytes.length_slice hlength.ge]),
      Bytes.wordAt_slice (by decide) hlength.ge, Bytes.wordAt_slice (by omega) h]
  have hlt := Bytes.wordAt_lt bytes (offset.toNat + 4) 4
  have hsize : (UInt32.ofNat (bytes.wordAt (offset.toNat + 4) 4)).toUInt64 =
      .ofNat (bytes.wordAt (offset.toNat + 4) 4) := by
    rw [← UInt64.toNat_inj, UInt32.toNat_toUInt64, UInt32.toNat_ofNat', UInt64.toNat_ofNat']
    omega
  rw [stated, hrange, ← hsize]
  change (do let size ← word32 _; return UInt32.toUInt64 size) = _
  rw [hword]
  rfl

theorem bad_size_iff (size : UInt64) :
    (size < 8 || size % 8 != 0) = true ↔ size.toNat < 8 ∨ size.toNat % 8 ≠ 0 := by
  rw [Bool.or_eq_true, decide_eq_true_eq, bne_iff_ne, UInt64.lt_iff_toNat_lt, ne_eq,
    ← UInt64.toNat_inj, UInt64.toNat_mod]
  rfl

/-- The sum of an offset in a buffer and a length that a header states fits into a word. -/
theorem recordOf_eq (hbytes : bytes.length < 2 ^ 63) (h : offset.toNat ≤ bytes.length)
    {size : UInt64} (hsize : size.toNat < 2 ^ 32) :
    recordOf bytes offset size = .ok (if bytes.length - offset.toNat < size.toNat then
      .corrupt offset.toNat
      else .record ⟨offset.toNat, (bytes.drop offset.toNat).take size.toNat⟩) := by
  have hfits : offset.toNat + size.toNat < 2 ^ 64 := by omega
  obtain ⟨hsum, hstop⟩ := sum?_of_lt hfits
  rw [recordOf, hsum]
  by_cases hlong : bytes.length - offset.toNat < size.toNat
  · have hnone : bytes.range? offset (offset + size) = none := Bytes.range?_eq_none (by omega)
    rw [if_pos hlong]
    simp only [orFault, bind, Except.bind, hnone]
    rfl
  · have hrange : bytes.range? offset (offset + size) = some (bytes.slice _ _) :=
      Bytes.range?_eq_some (by omega) (by omega)
    rw [hstop, Bytes.slice, Nat.add_sub_cancel_left] at hrange
    rw [if_neg hlong]
    simp only [orFault, bind, Except.bind, hrange]
    rfl

theorem scan_eq (hbytes : bytes.length < 2 ^ 63) (offset : UInt64) :
    scan bytes offset = .ok (scanAt bytes offset.toNat) := by
  rw [scan, scanAt, scanFront_eq, List.length_drop, headerSize, recordAlign]
  by_cases hheader : bytes.length - offset.toNat < 8
  · rw [header_eq_none (by omega), if_pos hheader]
  · have hin : offset.toNat + 8 ≤ bytes.length := by omega
    have hlt := Bytes.wordAt_lt bytes (offset.toNat + 4) 4
    have hsize : (UInt64.ofNat (bytes.wordAt (offset.toNat + 4) 4)).toNat =
        bytes.wordAt (offset.toNat + 4) 4 :=
      UInt64.toNat_ofNat_of_lt' (Nat.lt_trans hlt (by decide))
    rw [header_eq_some hin hbytes, if_neg hheader, Bytes.wordAt_drop (by omega)]
    simp only [stated_eq hin, bind, Except.bind, bad_size_iff]
    rw [recordOf_eq hbytes (by omega) (by rwa [hsize]), hsize]
    generalize bytes.wordAt (offset.toNat + 4) 4 = size
    by_cases hbad : size < 8 ∨ size % 8 ≠ 0
    · rw [if_pos hbad, if_pos (by tauto)]
      rfl
    · rw [if_neg hbad]
      simp only [← or_assoc, hbad, false_or]

theorem parse_eq (hbytes : bytes.length < 2 ^ 63) (offset : UInt64) :
    parse bytes offset = .ok (RecordView.parse? bytes offset.toNat) := by
  rw [parse, scan_eq hbytes, RecordView.parse?]
  cases scanAt bytes offset.toNat with
  | record view => rfl
  | finished => rfl
  | corrupt offset => rfl

end

theorem stop_eq {view : RecordView} (h : view.stop < 2 ^ 64) :
    ∃ word, stop view = .ok word ∧ word.toNat = view.stop := by
  have hoffset : (UInt64.ofNat view.offset).toNat = view.offset :=
    UInt64.toNat_ofNat_of_lt' (Nat.lt_of_le_of_lt (Nat.le_add_right ..) h)
  have hsize : (UInt64.ofNat view.size).toNat = view.size :=
    UInt64.toNat_ofNat_of_lt' (Nat.lt_of_le_of_lt (Nat.le_add_left ..) h)
  have hfits : (UInt64.ofNat view.offset).toNat + (UInt64.ofNat view.size).toNat < 2 ^ 64 := by
    rw [hoffset, hsize]
    exact h
  obtain ⟨hsum, hstop⟩ := sum?_of_lt hfits
  rw [hoffset, hsize] at hstop
  exact ⟨_, by rw [stop, hsum]; rfl, hstop⟩

theorem tag_eq {view : RecordView} (h : headerSize ≤ view.size) : tag view = .ok view.tag := by
  have hfour : 4 ≤ view.bytes.length := Nat.le_trans (by decide) h
  have hrange : view.bytes.range? 0 4 = some (view.bytes.slice 0 4) :=
    Bytes.range?_eq_some (by decide) hfour
  have hword : word32 (view.bytes.slice 0 4) = .ok view.tag := by
    rw [word32_eq (by rw [Bytes.length_slice hfour]), Bytes.wordAt_slice (by decide) hfour]
    rfl
  rw [tag, hrange]
  exact hword

/-! ## Whole buffers -/

section

variable {buffer : Bytes} (hbuffer : buffer.length < 2 ^ 63) (valid : UInt64)

include hbuffer

theorem region_eq : region buffer valid = .ok (validRegion buffer valid.toNat) := by
  have hlength : (UInt64.ofNat buffer.length).toNat = buffer.length :=
    UInt64.toNat_ofNat_of_lt' (Nat.lt_trans hbuffer (by decide))
  have hmin : (min valid (.ofNat buffer.length)).toNat = min valid.toNat buffer.length := by
    change (if valid ≤ .ofNat buffer.length then valid else .ofNat buffer.length).toNat = _
    split
    · rename_i hle
      rw [UInt64.le_iff_toNat_le, hlength] at hle
      omega
    · rename_i hgt
      rw [UInt64.le_iff_toNat_le, hlength] at hgt
      omega
  have hrange : buffer.range? 0 (min valid (.ofNat buffer.length)) = some (buffer.slice _ _) :=
    Bytes.range?_eq_some (Nat.zero_le _) (by omega)
  rw [region, hrange, hmin, validRegion, List.take_eq_take_min]
  rfl

theorem length_region_lt : (validRegion buffer valid.toNat).length < 2 ^ 63 :=
  Nat.lt_of_le_of_lt (List.length_take_le' ..) hbuffer

theorem recordAt_eq (cursor : UInt64) :
    recordAt buffer valid cursor = .ok (recordAt? buffer valid.toNat ⟨cursor.toNat⟩) := by
  rw [recordAt, region_eq hbuffer]
  exact parse_eq (length_region_lt hbuffer valid) cursor

theorem typeAt_eq (cursor : UInt64) :
    typeAt buffer valid cursor = .ok (recordTypeAt buffer valid.toNat ⟨cursor.toNat⟩) := by
  rw [typeAt, recordAt_eq hbuffer, recordTypeAt]
  cases hview : recordAt? buffer valid.toNat ⟨cursor.toNat⟩ with
  | none => rfl
  | some view =>
    have hheader := (RecordView.parse?_eq_some hview).2.1.header
    simp only [bind, Except.bind, tag_eq hheader, RecordView.type, RecordView.kind?]
    cases Kind.ofCode? view.tag with
    | none => rfl
    | some kind => rfl

theorem read_eq (r : ContextReader) (cursor : UInt64) :
    read r buffer valid cursor = .ok (r.read buffer valid.toNat ⟨cursor.toNat⟩) := by
  rw [read, recordAt_eq hbuffer, ContextReader.read]
  cases hview : recordAt? buffer valid.toNat ⟨cursor.toNat⟩ with
  | none => rfl
  | some view =>
    have hheader := (RecordView.parse?_eq_some hview).2.1.header
    simp only [bind, Except.bind, tag_eq hheader]
    rfl

/-- The offset of a record is the word that it has been looked for at. -/
theorem cursorAt_eq (next : UInt64) :
    ∃ found, cursorAt (validRegion buffer valid.toNat) next = .ok found ∧
      found.map UInt64.toNat =
        (recordAt? buffer valid.toNat ⟨next.toNat⟩).map RecordView.offset := by
  rw [cursorAt, parse_eq (length_region_lt hbuffer valid)]
  refine ⟨_, rfl, ?_⟩
  change (Option.map _ (recordAt? buffer valid.toNat ⟨next.toNat⟩)).map _ = _
  cases hview : recordAt? buffer valid.toNat ⟨next.toNat⟩ with
  | none => rfl
  | some view =>
    have hoffset : view.offset = next.toNat := (RecordView.parse?_eq_some hview).1
    rw [Option.map_some, Option.map_some, Option.map_some, hoffset, UInt64.ofNat_toNat]

theorem advance_eq (current : Option UInt64) :
    ∃ next, advance buffer valid current = .ok next ∧ next.map UInt64.toNat =
      (advance? buffer valid.toNat (current.map fun cursor => ⟨cursor.toNat⟩)).map
        Cursor.offset := by
  rw [advance, region_eq hbuffer]
  cases current with
  | none =>
    obtain ⟨found, hfound, hvalue⟩ := cursorAt_eq hbuffer valid 0
    refine ⟨found, hfound, hvalue.trans ?_⟩
    rw [Option.map_none, offset_advance?_none]
    rfl
  | some cursor =>
    have hparse : parse (validRegion buffer valid.toNat) cursor =
        .ok (recordAt? buffer valid.toNat ⟨cursor.toNat⟩) :=
      parse_eq (length_region_lt hbuffer valid) cursor
    rw [Option.map_some, offset_advance?_some]
    cases hview : recordAt? buffer valid.toNat ⟨cursor.toNat⟩ with
    | none =>
      refine ⟨none, ?_, rfl⟩
      simp only [bind, Except.bind, hparse, hview]
      rfl
    | some view =>
      have hle : view.stop ≤ (validRegion buffer valid.toNat).length :=
        (RecordView.parse?_eq_some hview).2.2
      have hlt : view.stop < 2 ^ 64 := by
        have hregion := length_region_lt hbuffer valid
        omega
      obtain ⟨next, hnext, hvalue⟩ := stop_eq hlt
      obtain ⟨found, hfound, hoffset⟩ := cursorAt_eq hbuffer valid next
      refine ⟨found, ?_, ?_⟩
      · simp only [bind, Except.bind, hparse, hview, hnext]
        exact hfound
      · rw [hoffset, hvalue]
        rfl

end

end Machine

/-- Let a buffer hold any bytes, no more than a machine can have, let any number of them be said to
be valid, and let a cursor point anywhere. No sum of offsets leaves 64 bits and no bytes are taken
that are not there: all steps give what they give with natural numbers. A cursor has a type, and a
reader hands out a record, exactly where a record is found. And a cursor moves only from a record to
the end of this record, and only if another record lies there, with the bytes of the buffer and
within the valid ones. -/
theorem cursors_in_bounds {buffer : Bytes} (hbuffer : buffer.length ≤ 2 ^ 63 - 1)
    (valid : UInt64) :
    (∀ current : Option UInt64,
      ∃ next, Machine.advance buffer valid current = .ok next ∧ next.map UInt64.toNat =
        (advance? buffer valid.toNat (current.map fun cursor => ⟨cursor.toNat⟩)).map
          Cursor.offset) ∧
    (∀ cursor : UInt64,
      Machine.recordAt buffer valid cursor =
        .ok (recordAt? buffer valid.toNat ⟨cursor.toNat⟩) ∧
      Machine.typeAt buffer valid cursor =
        .ok (recordTypeAt buffer valid.toNat ⟨cursor.toNat⟩) ∧
      ∀ r, Machine.read r buffer valid cursor =
        .ok (r.read buffer valid.toNat ⟨cursor.toNat⟩)) ∧
    (∀ cursor : Cursor,
      (recordTypeAt buffer valid.toNat cursor ≠ .invalid ↔
        (recordAt? buffer valid.toNat cursor).isSome) ∧
      ∀ r : ContextReader, (r.read buffer valid.toNat cursor).1.map Prod.fst =
        recordAt? buffer valid.toNat cursor) ∧
    ∀ cursor next : Cursor, advance? buffer valid.toNat (some cursor) = some next →
      ∃ view after, recordAt? buffer valid.toNat cursor = some view ∧ view.bytes.IsRecord ∧
        next.offset = view.stop ∧ cursor.offset + 8 ≤ next.offset ∧
        recordAt? buffer valid.toNat next = some after ∧ after.offset = next.offset ∧
        after.bytes = buffer.slice after.offset after.stop ∧ after.bytes.IsRecord ∧
        after.stop ≤ min valid.toNat buffer.length := by
  have hlt : buffer.length < 2 ^ 63 := by omega
  refine ⟨Machine.advance_eq hlt valid, ?found, ?same, ?moved⟩
  case found =>
    intro cursor
    exact ⟨Machine.recordAt_eq hlt valid cursor, Machine.typeAt_eq hlt valid cursor,
      fun r => Machine.read_eq hlt valid r cursor⟩
  case same =>
    intro cursor
    exact ⟨recordTypeAt_ne_invalid_iff .., fun r => r.read_record ..⟩
  case moved =>
    intro cursor next hnext
    obtain ⟨view, after, hview, hstop, hafter⟩ := advance?_eq_some hnext
    obtain ⟨hoffset, -, hrecord, -⟩ := recordAt?_eq_some hview
    obtain ⟨hplace, hbytes, hagain, hvalid⟩ := recordAt?_eq_some hafter
    have hheader : 8 ≤ view.size := hrecord.header
    have hfar : cursor.offset + 8 ≤ next.offset := by
      rw [hstop, RecordView.stop, hoffset]
      omega
    exact ⟨view, after, hview, hrecord, hstop, hfar, hafter, hplace, hbytes, hagain, hvalid⟩

/-! Two bare headers, of which more bytes are said to be valid than there are, and a cursor that
comes from elsewhere. -/

def bareHeaders : Bytes := [3, 0, 0, 0, 8, 0, 0, 0, 1, 0, 0, 0, 8, 0, 0, 0]

theorem cursors_in_bounds_far_away :
    bareHeaders.length ≤ 2 ^ 63 - 1 ∧
      (∃ next, Machine.advance bareHeaders 0xffffffffffffffff (some 0) = .ok next ∧
        next.map UInt64.toNat = some 8) ∧
      Machine.recordAt bareHeaders 0xffffffffffffffff 0xfffffffffffffffc = .ok none := by
  have hlength : bareHeaders.length ≤ 2 ^ 63 - 1 := by decide
  obtain ⟨hadvance, hfound, -, -⟩ := cursors_in_bounds hlength 0xffffffffffffffff
  obtain ⟨next, hnext, hvalue⟩ := hadvance (some 0)
  refine ⟨hlength, ⟨next, hnext, hvalue.trans (by decide)⟩, ?_⟩
  rw [(hfound 0xfffffffffffffffc).1]
  decide

end DeviceTrace
