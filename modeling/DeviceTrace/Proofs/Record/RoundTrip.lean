import DeviceTrace.Proofs.Record.Decoding

/-!
# Writing and reading back

An encoded record is a whole record of a stream, and encoded records one after the other are a
stream of just these. A record that is read from bytes, hostile ones included, is written with the
same tag in no more bytes, and is read back from there.
-/

namespace DeviceTrace

/-- A whole record parses by itself. -/
theorem RecordView.headerSize_le_of_parse? {bytes : Bytes} {offset : Nat} {v : RecordView}
    (h : parse? bytes offset = some v) : headerSize ≤ v.size := by
  unfold parse? at h
  split at h
  · rename_i view hscan
    cases h
    exact (scanFront_record hscan).2.2.1
  · cases h
  · cases h

namespace Record

theorem isRecord_encode (r : Record) : r.encode.IsRecord := by
  rw [r.encode_eq_draft]
  exact Layout.isRecord_draft r.entries_sublist r.tag

theorem length_encode (r : Record) : r.encode.length = r.layout.size := by
  rw [r.encode_eq_draft, Layout.length_draft]

theorem tag_encode (r : Record) (offset : Nat) : RecordView.tag ⟨offset, r.encode⟩ = r.tag := by
  have hword := Layout.wordAt_draft_tag r.entries_sublist r.tag
  rw [← r.encode_eq_draft] at hword
  exact (congrArg UInt32.ofNat hword).trans UInt32.ofNat_toNat

theorem wordIn_encode {r : Record} {e : Entry} (he : e ∈ r.entries) (offset : Nat) :
    RecordView.wordIn ⟨offset, r.encode⟩ e.field = e.value := by
  have hword := Layout.wordAt_draft r.entries_sublist r.tag he
  rwa [← r.encode_eq_draft] at hword

theorem ofView_encode {r : Record} (hr : r.Readable) (offset : Nat) :
    ofView ⟨offset, r.encode⟩ = r :=
  ofView_of_entries hr (r.tag_encode offset) fun _ he => wordIn_encode he offset

/-- Exactly the readable records are read back. -/
theorem decode_encode_iff (r : Record) (offset : Nat) :
    decode ⟨offset, r.encode⟩ = .ok r ↔ r.Readable := by
  constructor
  · intro h
    rw [eq_ofView_of_decode h]
    exact readable_ofView _
  · intro hr
    have hlayout : RecordView.layout ⟨offset, r.encode⟩ = r.layout := by
      rw [← layout_ofView, ofView_encode hr]
    have hroom : (RecordView.layout ⟨offset, r.encode⟩).size ≤ r.encode.length := by
      rw [hlayout, r.length_encode]
    rw [decode_of_layout_le hroom, ofView_encode hr]

/-! ## Streams of encoded records -/

theorem splits_flatMap_encode (rs : List Record) :
    Bytes.Splits (rs.flatMap encode) (rs.map encode) [] := by
  rw [List.flatMap_def]
  refine splits_flatten fun bytes hbytes => ?_
  obtain ⟨r, -, rfl⟩ := List.mem_map.mp hbytes
  exact r.isRecord_encode

theorem map_decode_viewsAt_iff (rs : List Record) (offset : Nat) :
    (viewsAt offset (rs.map encode)).map decode = rs.map .ok ↔ ∀ r ∈ rs, r.Readable := by
  induction rs generalizing offset with
  | nil => simp [viewsAt]
  | cons r rs ih =>
    simp only [List.map_cons, viewsAt, List.cons.injEq, List.forall_mem_cons]
    rw [decode_encode_iff, ih]

/-- A stream of encoded records is walked to its end without an error, and gives back the records in
their order if all of them are readable. No other record is given back, not even by itself. -/
theorem decode_stream_iff :
    (∀ rs : List Record,
      walkError (rs.flatMap encode) = none ∧
      (recordsEnd (rs.flatMap encode)).position = (rs.flatMap encode).length ∧
      ((records (rs.flatMap encode)).map decode = rs.map .ok ↔ ∀ r ∈ rs, r.Readable)) ∧
    ∀ r : Record, ¬ r.Readable →
      ∃ v, RecordView.parse? r.encode 0 = some v ∧ decode v ≠ .ok r := by
  constructor
  · intro rs
    have hsplits := splits_flatMap_encode rs
    refine ⟨?_, ?_, ?_⟩
    · rw [hsplits.walkError_eq]
      rfl
    · rw [hsplits.position_eq, List.flatMap_def]
    · rw [hsplits.records_eq]
      exact map_decode_viewsAt_iff rs 0
  · intro r hr
    exact ⟨_, r.isRecord_encode.parse?, fun h => hr ((r.decode_encode_iff 0).mp h)⟩

/-! ## Records read from bytes -/

theorem layout_size_le {v : RecordView} {r : Record} (hheader : headerSize ≤ v.size)
    (h : decode v = .ok r) : v.layout.size ≤ v.size := by
  obtain ⟨-, hbare⟩ | ⟨kind, -, -, hrequire⟩ := decode_cases v
  · rwa [RecordView.layout, hbare]
  · exact (RecordView.require_eq_ok_iff.mp (hrequire ▸ h)).1

/-- A record of a stream is refused if it is shorter than the layout of its kind. Otherwise it is
decoded to what its fields hold, and this is written with the same tag in no more bytes, and read
back from there. -/
theorem decode_parsed {bytes : Bytes} {offset : Nat} {v : RecordView}
    (h : RecordView.parse? bytes offset = some v) :
    (∀ e, decode v = .error e ↔ ∃ kind l, v.kind? = some kind ∧ kind.layout? = some l ∧
      v.size < l.size ∧ e = .truncated kind.label v.size l.size) ∧
    ((∀ e, decode v ≠ .error e) → ∃ r,
      decode v = .ok r ∧
      (∀ w : RecordView, w.tag = v.tag → v.layout.size ≤ w.size →
        (∀ f ∈ v.layout.fields, w.wordIn f = v.wordIn f) → decode w = .ok r) ∧
      r.encode.length ≤ v.size ∧
      ∃ u, RecordView.parse? r.encode 0 = some u ∧ u.tag = v.tag ∧ decode u = .ok r) := by
  refine ⟨fun e => decode_eq_error_iff, fun hread => ?_⟩
  obtain ⟨r, hr⟩ : ∃ r, decode v = .ok r := by
    cases hdecode : decode v with
    | error e => exact absurd hdecode (hread e)
    | ok r => exact ⟨r, rfl⟩
  have hroom := layout_size_le (RecordView.headerSize_le_of_parse? h) hr
  obtain rfl := eq_ofView_of_decode hr
  refine ⟨ofView v, hr, fun w htag hw hwords => ?_, ?_, _, (isRecord_encode _).parse?, ?_, ?_⟩
  · have hlayout : w.layout = v.layout := by
      unfold RecordView.layout RecordView.kind?
      rw [htag]
    rw [decode_of_layout_le (hlayout ▸ hw), ofView_congr htag hwords]
  · rwa [length_encode, layout_ofView]
  · rw [tag_encode, tag_ofView]
  · exact (decode_encode_iff _ 0).mpr (readable_ofView v)

/-- A copy with codes and flags that are in no table, and eight bytes behind its layout. -/
def strangeCopy : Bytes :=
  Draft.bytes <| Draft.new Kind.memcpy.code 64
    |>.putUInt8 8 11
    |>.putUInt8 9 12
    |>.putUInt8 10 254
    |>.putUInt8 11 253
    |>.putUInt32 52 7
    |>.putUInt64 56 0xffffffffffffffff

theorem decode_parsed_strange :
    let v : RecordView := ⟨0, strangeCopy⟩
    RecordView.parse? strangeCopy 0 = some v ∧
    ∃ r, decode v = .ok r ∧ r.correlation? = some 7 ∧ r.encode.length = 56 ∧
      r.encode ≠ v.bytes.take 56 ∧
      (∀ w : RecordView, w.tag = v.tag → v.layout.size ≤ w.size →
        (∀ f ∈ v.layout.fields, w.wordIn f = v.wordIn f) → decode w = .ok r) ∧
      ∃ u, RecordView.parse? r.encode 0 = some u ∧ u.tag = v.tag ∧ decode u = .ok r := by
  intro v
  have h : RecordView.parse? strangeCopy 0 = some v := by decide +kernel
  have hread : decode v = .ok (.copy
      { direction := .unknown, source := .unknown, destination := .unknown, isAsync := true
        size := 0, start := 0, finish := 0, device := 0, context := 0, stream := 0
        correlation := 7, peers := none }) := by decide +kernel
  obtain ⟨r, hr, hdepends, -, hagain⟩ := (decode_parsed h).2 (by simp [hread])
  obtain rfl := Except.ok.inj (hread.symm.trans hr)
  exact ⟨h, _, hr, rfl, by decide +kernel, by decide +kernel, hdepends, hagain⟩

end Record
end DeviceTrace
