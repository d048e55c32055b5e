import DeviceTrace.Proofs.Stream.Walk
import DeviceTrace.Record.Draft

/-!
# Drafts with a layout

A layout says where the fields of a record lie: behind the header, one after the other, inside the
record. A draft that is filled with numbers for fields of its layout is a whole record with the tag
that it was made for, and every number is read back from its field.
-/

namespace DeviceTrace

/-- A field of a record: where it lies, and how many bytes it has. -/
structure Field where
  offset : Nat
  width : Nat
  deriving DecidableEq, Repr

def Field.stop (f : Field) : Nat := f.offset + f.width

/-- A number for a field. -/
structure Entry where
  field : Field
  value : Nat
  fits : value < 256 ^ field.width

/-- The length of a record and its fields, in the order of their places. -/
structure Layout where
  size : Nat
  fields : List Field
  header_le : headerSize ≤ size := by decide
  size_lt : size < 256 ^ 4 := by decide
  aligned : size % recordAlign = 0 := by decide
  ordered : fields.Pairwise fun f g => f.stop ≤ g.offset := by decide
  inside : ∀ f ∈ fields, headerSize ≤ f.offset ∧ f.stop ≤ size := by decide

/-- The number that a view has in a field. -/
def RecordView.wordIn (v : RecordView) (f : Field) : Nat := v.bytes.wordAt f.offset f.width

namespace Draft

/-- The least multiple of the alignment with room for the length, and at least for a header. -/
theorem paddedSize_cases (length : Nat) :
    max length headerSize ≤ paddedSize length ∧
      paddedSize length < max length headerSize + recordAlign ∧
      paddedSize length % recordAlign = 0 := by
  unfold paddedSize
  simp only [headerSize, recordAlign]
  omega

/-- An empty record: its tag, the low bytes of its length, and zeros. -/
theorem bytes_new (tag : UInt32) (length : Nat) : (new tag length).bytes =
    .ofNatLE 4 tag.toNat ++
      (.ofNatLE 4 (paddedSize length) ++ .zeros (paddedSize length - headerSize)) :=
  List.append_assoc ..

@[simp] theorem length_new (tag : UInt32) (length : Nat) :
    (new tag length).bytes.length = paddedSize length := by
  have hpadded := (paddedSize_cases length).1
  rw [bytes_new]
  simp only [headerSize, List.length_append, Bytes.length_ofNatLE, Bytes.length_zeros] at *
  omega

theorem wordAt_new_tag (tag : UInt32) (length : Nat) :
    (new tag length).bytes.wordAt 0 4 = tag.toNat := by
  rw [bytes_new, Bytes.wordAt_ofNatLE]
  exact Nat.mod_eq_of_lt tag.toNat_lt

/-- A header has room for the low 32 bits of the length. -/
theorem wordAt_new_size (tag : UInt32) (length : Nat) :
    (new tag length).bytes.wordAt 4 4 = paddedSize length % 256 ^ 4 := by
  have hbehind := Bytes.wordAt_append_right (.ofNatLE 4 tag.toNat)
    (.ofNatLE 4 (paddedSize length) ++ .zeros (paddedSize length - headerSize)) 0 4
  rw [Bytes.length_ofNatLE, Bytes.wordAt_ofNatLE] at hbehind
  rw [bytes_new]
  exact hbehind

/-- Writes each number into its field. -/
def fill (d : Draft) (entries : List Entry) : Draft :=
  entries.foldl (fun d e => d.put e.field.offset e.field.width e.value) d

@[simp] theorem length_put (d : Draft) (offset width value : Nat) :
    (d.put offset width value).bytes.length = d.bytes.length :=
  Bytes.length_overwrite ..

@[simp] theorem length_fill (d : Draft) (entries : List Entry) :
    (d.fill entries).bytes.length = d.bytes.length := by
  induction entries generalizing d with
  | nil => rfl
  | cons e entries ih => exact (ih _).trans (d.length_put ..)

theorem wordAt_put {d : Draft} {offset width : Nat} (h : offset + width ≤ d.bytes.length)
    (value : Nat) : (d.put offset width value).bytes.wordAt offset width = value % 256 ^ width := by
  have hraw : offset + (Bytes.ofNatLE width value).length ≤ d.bytes.length := by simpa
  have hword := Bytes.wordAt_overwrite hraw
  rwa [Bytes.length_ofNatLE, Bytes.toNatLE_ofNatLE] at hword

theorem wordAt_put_of_disjoint (d : Draft) {offset width start width' : Nat} (value : Nat)
    (h : start + width' ≤ offset ∨ offset + width ≤ start) :
    (d.put offset width value).bytes.wordAt start width' = d.bytes.wordAt start width' :=
  Bytes.wordAt_overwrite_of_disjoint _ _ (by simpa using h)

/-- Filling fields changes no word before or behind them. -/
theorem wordAt_fill_of_disjoint (d : Draft) {entries : List Entry} {start width : Nat}
    (h : ∀ e ∈ entries, start + width ≤ e.field.offset ∨ e.field.stop ≤ start) :
    (d.fill entries).bytes.wordAt start width = d.bytes.wordAt start width := by
  induction entries generalizing d with
  | nil => rfl
  | cons e entries ih =>
    have hrest := ih (d.put e.field.offset e.field.width e.value) fun e he => h e (by simp [he])
    exact hrest.trans (d.wordAt_put_of_disjoint _ (h e (by simp)))

/-- Numbers are read back from fields that lie one after the other inside the draft. -/
theorem wordAt_fill (d : Draft) {entries : List Entry}
    (hordered : entries.Pairwise fun e e' => e.field.stop ≤ e'.field.offset)
    (hinside : ∀ e ∈ entries, e.field.stop ≤ d.bytes.length) {e : Entry} (he : e ∈ entries) :
    (d.fill entries).bytes.wordAt e.field.offset e.field.width = e.value := by
  induction entries generalizing d with
  | nil => cases he
  | cons first entries ih =>
    obtain ⟨hafter, hordered⟩ := List.pairwise_cons.mp hordered
    rcases List.mem_cons.mp he with rfl | he
    · have hkept : ((d.put e.field.offset e.field.width e.value).fill entries).bytes.wordAt
          e.field.offset e.field.width = _ :=
        wordAt_fill_of_disjoint _ fun later hlater => .inl (hafter later hlater)
      have hput := wordAt_put (hinside e (by simp)) e.value
      exact hkept.trans (hput.trans (Nat.mod_eq_of_lt e.fits))
    · refine ih (d.put ..) hordered (fun e he => ?_) he
      rw [length_put]
      exact hinside e (by simp [he])

end Draft

namespace Layout

variable (l : Layout)

/-- A record of this layout, with numbers in some of its fields. -/
def draft (tag : UInt32) (entries : List Entry) : Draft := (Draft.new tag l.size).fill entries

/-- The size of a layout needs no padding. -/
theorem paddedSize_size : Draft.paddedSize l.size = l.size := by
  have hheader := l.header_le
  have haligned := l.aligned
  unfold Draft.paddedSize
  simp only [headerSize, recordAlign] at *
  omega

theorem length_new (tag : UInt32) : (Draft.new tag l.size).bytes.length = l.size :=
  (Draft.length_new ..).trans l.paddedSize_size

@[simp] theorem length_draft (tag : UInt32) (entries : List Entry) :
    (l.draft tag entries).bytes.length = l.size :=
  (Draft.length_fill ..).trans (l.length_new tag)

variable {l} {entries : List Entry} (h : (entries.map Entry.field).Sublist l.fields) (tag : UInt32)

include h

theorem inside_of_sublist {e : Entry} (he : e ∈ entries) :
    headerSize ≤ e.field.offset ∧ e.field.stop ≤ l.size :=
  l.inside _ (h.subset (List.mem_map_of_mem he))

theorem wordAt_draft {e : Entry} (he : e ∈ entries) :
    (l.draft tag entries).bytes.wordAt e.field.offset e.field.width = e.value := by
  have hordered := List.pairwise_map.mp (l.ordered.sublist h)
  refine Draft.wordAt_fill _ hordered (fun e he => ?_) he
  rw [l.length_new]
  exact (inside_of_sublist h he).2

/-- Fields leave the header alone. -/
theorem wordAt_draft_header {start width : Nat} (hstart : start + width ≤ headerSize) :
    (l.draft tag entries).bytes.wordAt start width =
      (Draft.new tag l.size).bytes.wordAt start width := by
  refine Draft.wordAt_fill_of_disjoint _ fun e he => .inl ?_
  exact Nat.le_trans hstart (inside_of_sublist h he).1

theorem wordAt_draft_tag : (l.draft tag entries).bytes.wordAt 0 4 = tag.toNat := by
  rw [wordAt_draft_header h tag (by decide), Draft.wordAt_new_tag]

theorem isRecord_draft : (l.draft tag entries).bytes.IsRecord where
  header := by simpa using l.header_le
  aligned := by simpa using l.aligned
  stated := by
    rw [wordAt_draft_header h tag (by decide), length_draft, Draft.wordAt_new_size,
      l.paddedSize_size]
    exact Nat.mod_eq_of_lt l.size_lt

end Layout
end DeviceTrace
