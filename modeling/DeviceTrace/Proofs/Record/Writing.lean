import Mathlib.Algebra.Group.Int.Defs
import Mathlib.Data.List.Induction
import DeviceTrace.Proofs.Record.Drafts
import DeviceTrace.Proofs.Stream.Cursors

/-!
# Drafts that are written to anywhere

A producer makes a draft of some length and writes words of one, two, four or eight bytes to any
places behind its header, over one another and past its end. Each byte of the payload is then the
one of the last word that lies inside the draft and covers it, and zero if there is none. The end of
a word that is written near the last offset of 64 bits does not fit into a machine word. A machine
that lets the sum wrap leaves such a word out, like any other one past the end of the draft, and one
that checks its sums ends in a fault.

The draft is one whole record as long as its size fits into the four bytes that the header has for
it. A larger draft states only the low 32 bits of its size, so a walk over it stops at its header or
goes on in the middle of its payload.
-/

namespace DeviceTrace

/-- A number that is written at an offset, as a word of its width. -/
inductive WordWrite
  | uint8 (offset : Nat) (value : UInt8)
  | uint16 (offset : Nat) (value : UInt16)
  | uint32 (offset : Nat) (value : UInt32)
  | int32 (offset : Nat) (value : Int32)
  | uint64 (offset : Nat) (value : UInt64)
  deriving DecidableEq

namespace WordWrite

def offset : WordWrite → Nat
  | uint8 offset _ | uint16 offset _ | uint32 offset _ | int32 offset _ | uint64 offset _ => offset

/-- How many bytes the word has. -/
def width : WordWrite → Nat
  | uint8 .. => 1
  | uint16 .. => 2
  | uint32 .. | int32 .. => 4
  | uint64 .. => 8

/-- The number that the bytes of the word stand for, in two's complement for a signed one. -/
def word : WordWrite → Nat
  | uint8 _ value => value.toNat
  | uint16 _ value => value.toNat
  | uint32 _ value => value.toNat
  | int32 _ value => (value.toInt % 2 ^ 32).toNat
  | uint64 _ value => value.toNat

def stop (w : WordWrite) : Nat := w.offset + w.width

/-- The byte of the word, least significant byte first, that comes to this place of a draft. -/
def byteAt (w : WordWrite) (place : Nat) : UInt8 := .ofNat (w.word / 256 ^ (place - w.offset))

/-- The word lies wholly inside a draft of this size, and covers the place. -/
def Covers (w : WordWrite) (size place : Nat) : Prop :=
  w.offset ≤ place ∧ place < w.stop ∧ w.stop ≤ size

instance (w : WordWrite) (size place : Nat) : Decidable (w.Covers size place) :=
  inferInstanceAs (Decidable (_ ∧ _ ∧ _))

/-- The last word that covers a place of a draft of this size. -/
def lastAt? (writes : List WordWrite) (size place : Nat) : Option WordWrite :=
  (writes.filter fun w => w.Covers size place).getLast?

/-- A signed word has the bits of its two's complement. -/
theorem toNat_toUInt32 (value : Int32) : value.toUInt32.toNat = (value.toInt % 2 ^ 32).toNat := by
  have hsigned : value.toInt = (value.toUInt32.toNat : Int).bmod (2 ^ 32) := by
    rw [Int32.toInt, BitVec.toInt_eq_toNat_bmod]
    rfl
  have hmod : value.toInt % (2 ^ 32 : Nat) = value.toUInt32.toNat % (2 ^ 32 : Nat) := by
    rw [hsigned, Int.bmod_emod]
  have hlt := value.toUInt32.toNat_lt
  omega

theorem width_le (w : WordWrite) : w.width ≤ 8 := by
  cases w <;> simp [width]

theorem toNat_ofNat_offset {w : WordWrite} (hw : w.offset < 2 ^ 64) :
    (UInt64.ofNat w.offset).toNat = w.offset := UInt64.toNat_ofNat_of_lt' hw

theorem toNat_ofNat_width (w : WordWrite) : (UInt64.ofNat w.width).toNat = w.width :=
  UInt64.toNat_ofNat_of_lt' (Nat.lt_of_le_of_lt w.width_le (by decide))

theorem offset_add_length (w : WordWrite) :
    w.offset + (Bytes.ofNatLE w.width w.word).length = w.stop := by
  rw [Bytes.length_ofNatLE, stop]

theorem lastAt?_concat (writes : List WordWrite) (w : WordWrite) (size place : Nat) :
    lastAt? (writes ++ [w]) size place =
      if w.Covers size place then some w else lastAt? writes size place := by
  rw [lastAt?, List.filter_append, List.filter_singleton]
  split
  · rename_i h
    simp [h]
  · rename_i h
    simp [h, lastAt?]

end WordWrite

namespace Draft

open WordWrite (lastAt?)

def write (d : Draft) : WordWrite → Draft
  | .uint8 offset value => d.putUInt8 offset value
  | .uint16 offset value => d.putUInt16 offset value
  | .uint32 offset value => d.putUInt32 offset value
  | .int32 offset value => d.putInt32 offset value
  | .uint64 offset value => d.putUInt64 offset value

/-- Puts a word in the place of the bytes from its offset up to `stop`, if they are there. -/
def writeUpTo (d : Draft) (w : WordWrite) (stop : UInt64) : Draft :=
  match d.bytes.range? (.ofNat w.offset) stop with
  | some _ => ⟨d.bytes.take w.offset ++ .ofNatLE w.width w.word ++ d.bytes.drop stop.toNat⟩
  | none => d

/-- Writes a word as a machine does that checks the sum of its offset and its width. -/
def tryWrite (d : Draft) (w : WordWrite) : Except Fault Draft := do
  let stop ← orFault .overflow (sum? (.ofNat w.offset) (.ofNat w.width))
  return d.writeUpTo w stop

/-- Writes a word as a machine does that lets the sum wrap. -/
def writeWrapped (d : Draft) (w : WordWrite) : Draft :=
  d.writeUpTo w (.ofNat w.offset + .ofNat w.width)

/-- Writes words one after the other. -/
def writeAll (d : Draft) (writes : List WordWrite) : Draft := writes.foldl write d

/-- Writes words one after the other until a sum does not fit. -/
def tryWriteAll (d : Draft) (writes : List WordWrite) : Except Fault Draft :=
  writes.foldlM tryWrite d

/-! ## One word -/

theorem write_eq_put (d : Draft) (w : WordWrite) : d.write w = d.put w.offset w.width w.word := by
  cases w with
  | int32 offset value =>
    rw [write, putInt32, putUInt32, WordWrite.toNat_toUInt32]
    rfl
  | _ => rfl

theorem length_write (d : Draft) (w : WordWrite) : (d.write w).bytes.length = d.bytes.length := by
  rw [write_eq_put, length_put]

theorem write_outside {d : Draft} {w : WordWrite} (h : d.bytes.length < w.stop) :
    d.write w = d := by
  rw [write_eq_put, put, Bytes.overwrite, w.offset_add_length, if_neg (Nat.not_le_of_lt h)]

theorem write_inside {d : Draft} {w : WordWrite} (h : w.stop ≤ d.bytes.length) :
    d.write w =
      ⟨d.bytes.take w.offset ++ .ofNatLE w.width w.word ++ d.bytes.drop w.stop⟩ := by
  rw [write_eq_put, put, Bytes.overwrite, w.offset_add_length, if_pos h]

section

variable {w : WordWrite}

/-- An end that fits into a word is the one that is meant. -/
theorem writeWrapped_of_stop_lt (d : Draft) (hstop : w.stop < 2 ^ 64) :
    d.writeWrapped w = d.write w := by
  have hoffset := WordWrite.toNat_ofNat_offset (Nat.lt_of_le_of_lt (Nat.le_add_right ..) hstop)
  have hsum : (UInt64.ofNat w.offset + UInt64.ofNat w.width).toNat = w.stop := by
    rw [UInt64.toNat_add, hoffset, w.toNat_ofNat_width]
    exact Nat.mod_eq_of_lt hstop
  rw [writeWrapped, writeUpTo]
  by_cases hinside : w.stop ≤ d.bytes.length
  · have hstart : w.offset ≤ w.stop := Nat.le_add_right ..
    rw [Bytes.range?_eq_some (by rwa [hoffset, hsum]) (by rwa [hsum]), write_inside hinside]
    dsimp only
    rw [hsum]
  · have houtside : d.bytes.length < w.stop := Nat.lt_of_not_le hinside
    rw [Bytes.range?_eq_none (by rwa [hsum]), write_outside houtside]

/-- An end that has been wrapped lies in front of the offset, so there are no bytes to give way. -/
theorem writeWrapped_eq {d : Draft} (hd : d.bytes.length < 2 ^ 64) (hw : w.offset < 2 ^ 64) :
    d.writeWrapped w = d.write w := by
  by_cases hstop : w.stop < 2 ^ 64
  · exact d.writeWrapped_of_stop_lt hstop
  · have hwidth := w.width_le
    have hdef : w.stop = w.offset + w.width := rfl
    have hwrapped : ¬ UInt64.ofNat w.offset ≤ UInt64.ofNat w.offset + UInt64.ofNat w.width := by
      rw [UInt64.le_iff_toNat_le, UInt64.toNat_add, WordWrite.toNat_ofNat_offset hw,
        w.toNat_ofNat_width]
      omega
    rw [write_outside (by omega), writeWrapped, writeUpTo, Bytes.range?,
      if_neg fun h => hwrapped h.1]

/-- A checked sum ends in a fault exactly if the end of the word does not fit into a word. -/
theorem tryWrite_eq (d : Draft) (hw : w.offset < 2 ^ 64) :
    d.tryWrite w = if w.stop < 2 ^ 64 then .ok (d.write w) else .error .overflow := by
  have hends : (UInt64.ofNat w.offset).toNat + (UInt64.ofNat w.width).toNat = w.stop := by
    rw [WordWrite.toNat_ofNat_offset hw, w.toNat_ofNat_width, WordWrite.stop]
  by_cases hstop : w.stop < 2 ^ 64
  · rw [if_pos hstop, tryWrite, (sum?_of_lt (by rwa [hends])).1, ← d.writeWrapped_of_stop_lt hstop]
    rfl
  · rw [if_neg hstop, tryWrite, sum?_eq_none (by rw [hends]; exact Nat.le_of_not_lt hstop)]
    rfl

end

theorem getElem?_write (d : Draft) (w : WordWrite) (place : Nat) :
    (d.write w).bytes[place]? =
      if w.Covers d.bytes.length place then some (w.byteAt place) else d.bytes[place]? := by
  by_cases hinside : w.stop ≤ d.bytes.length
  · have hraw : w.offset + (Bytes.ofNatLE w.width w.word).length ≤ d.bytes.length := by
      rwa [w.offset_add_length]
    rw [write_eq_put, put, Bytes.getElem?_overwrite hraw, w.offset_add_length]
    by_cases hwithin : w.offset ≤ place ∧ place < w.stop
    · have hplace : place - w.offset < w.width := Nat.sub_lt_left_of_lt_add hwithin.1 hwithin.2
      rw [if_pos hwithin, if_pos ⟨hwithin.1, hwithin.2, hinside⟩, Bytes.getElem?_ofNatLE,
        if_pos hplace, WordWrite.byteAt]
    · rw [if_neg hwithin, if_neg fun h => hwithin ⟨h.1, h.2.1⟩]
  · rw [write_outside (Nat.lt_of_not_le hinside), if_neg fun h => hinside h.2.2]

/-! ## Many words -/

theorem writeAll_concat (d : Draft) (writes : List WordWrite) (w : WordWrite) :
    d.writeAll (writes ++ [w]) = (d.writeAll writes).write w := List.foldl_concat ..

theorem length_writeAll (d : Draft) (writes : List WordWrite) :
    (d.writeAll writes).bytes.length = d.bytes.length := by
  induction writes generalizing d with
  | nil => rfl
  | cons w writes ih => exact (ih (d.write w)).trans (d.length_write w)

/-- With checked sums, words are written as long as their ends fit into a machine word. -/
theorem tryWriteAll_eq (d : Draft) {writes : List WordWrite}
    (hwrites : ∀ w ∈ writes, w.offset < 2 ^ 64) :
    d.tryWriteAll writes =
      if ∀ w ∈ writes, w.stop < 2 ^ 64 then .ok (d.writeAll writes) else .error .overflow := by
  induction writes generalizing d with
  | nil => rfl
  | cons w writes ih =>
    obtain ⟨hw, hrest⟩ := List.forall_mem_cons.mp hwrites
    rw [tryWriteAll, List.foldlM_cons, d.tryWrite_eq hw]
    by_cases hstop : w.stop < 2 ^ 64
    · simp only [List.forall_mem_cons, hstop, if_true, true_and]
      exact ih (d.write w) hrest
    · rw [if_neg hstop, if_neg fun h => hstop (h w List.mem_cons_self)]
      rfl

/-- The last word that covers a place has its byte there. -/
theorem getElem?_writeAll (d : Draft) (writes : List WordWrite) (place : Nat) :
    (d.writeAll writes).bytes[place]? =
      match lastAt? writes d.bytes.length place with
      | some w => some (w.byteAt place)
      | none => d.bytes[place]? := by
  induction writes using List.reverseRecOn with
  | nil => rfl
  | append_singleton writes w ih =>
    rw [writeAll_concat, getElem?_write, length_writeAll, WordWrite.lastAt?_concat, ih]
    split
    · rfl
    · rfl

/-- Words behind the header leave it alone. -/
theorem wordAt_writeAll_header (d : Draft) {writes : List WordWrite}
    (h : ∀ w ∈ writes, headerSize ≤ w.offset) {start width : Nat}
    (hstart : start + width ≤ headerSize) :
    (d.writeAll writes).bytes.wordAt start width = d.bytes.wordAt start width := by
  induction writes generalizing d with
  | nil => rfl
  | cons w writes ih =>
    have hrest : (d.writeAll (w :: writes)).bytes.wordAt start width = _ :=
      ih (d.write w) fun w hw => h w (List.mem_cons_of_mem _ hw)
    have hoffset : headerSize ≤ w.offset := h w List.mem_cons_self
    rw [hrest, write_eq_put, wordAt_put_of_disjoint _ _ (.inl (Nat.le_trans hstart hoffset))]

/-! ## What is read from a draft -/

section

variable (tag : UInt32) {length : Nat}

theorem getElem?_new {place : Nat} (hheader : headerSize ≤ place)
    (hplace : place < paddedSize length) : (new tag length).bytes[place]? = some 0 := by
  rw [headerSize] at hheader
  rw [bytes_new, ← List.append_assoc, List.getElem?_append_right (by simpa using hheader),
    Bytes.zeros, List.getElem?_replicate_of_lt]
  simp only [headerSize, List.length_append, Bytes.length_ofNatLE]
  omega

theorem paddedSize_lt_iff : paddedSize length < 2 ^ 32 ↔ length ≤ 2 ^ 32 - 8 := by
  unfold paddedSize
  simp only [headerSize, recordAlign]
  omega

variable {writes : List WordWrite} (hwrites : ∀ w ∈ writes, headerSize ≤ w.offset)

include hwrites

theorem tag_writeAll (offset : Nat) :
    RecordView.tag ⟨offset, ((new tag length).writeAll writes).bytes⟩ = tag := by
  rw [RecordView.tag, RecordView.uint32At, wordAt_writeAll_header _ hwrites (by decide),
    wordAt_new_tag, UInt32.ofNat_toNat]

theorem wordAt_writeAll_size :
    ((new tag length).writeAll writes).bytes.wordAt 4 4 = paddedSize length % 2 ^ 32 := by
  rw [wordAt_writeAll_header _ hwrites (by decide)]
  exact wordAt_new_size tag length

theorem isRecord_writeAll (hlength : paddedSize length < 2 ^ 32) :
    ((new tag length).writeAll writes).bytes.IsRecord := by
  obtain ⟨hle, -, haligned⟩ := paddedSize_cases length
  refine ⟨?_, ?_, ?_⟩
  · rw [length_writeAll, length_new]
    exact Nat.le_trans (Nat.le_max_right ..) hle
  · rwa [length_writeAll, length_new]
  · rw [wordAt_writeAll_size tag hwrites, length_writeAll, length_new, Nat.mod_eq_of_lt hlength]

/-- A draft that is too large for its header is scanned as far as the header says. -/
theorem scanAt_writeAll (hlength : 2 ^ 32 ≤ paddedSize length) :
    scanAt ((new tag length).writeAll writes).bytes 0 =
      if paddedSize length % 2 ^ 32 = 0 then .corrupt 0
      else .record ⟨0, ((new tag length).writeAll writes).bytes.take
        (paddedSize length % 2 ^ 32)⟩ := by
  obtain ⟨-, -, haligned⟩ := paddedSize_cases length
  rw [recordAlign] at haligned
  rw [scanAt, List.drop_zero, scanFront_eq, wordAt_writeAll_size tag hwrites, length_writeAll,
    length_new, headerSize, recordAlign, if_neg (by omega)]
  by_cases hzero : paddedSize length % 2 ^ 32 = 0
  · rw [if_pos hzero, if_pos (by omega)]
  · rw [if_neg hzero, if_neg (by omega)]

end

def overlappingWrites : List WordWrite :=
  [.uint64 8 0xffffffffffffffff, .uint16 10 0, .int32 13 (-2), .uint8 15 1, .uint64 16 5,
    .uint64 17 7]

/-- Let a draft have any length, and let words be written behind its header. The header states the
low 32 bits of the size. So the stated size is the real one, and the draft is read as one record,
exactly if the length is at most 2^32 - 8. Of a longer draft the reader finds a header that no
record can have, or a record that ends in the middle of the payload. -/
theorem stated_size_of_draft (tag : UInt32) (length : Nat) {writes : List WordWrite}
    (hwrites : ∀ w ∈ writes, headerSize ≤ w.offset) :
    let size := paddedSize length
    let bytes := ((new tag length).writeAll writes).bytes
    bytes.length = size ∧ bytes.wordAt 4 4 = size % 2 ^ 32 ∧
    (bytes.wordAt 4 4 = bytes.length ↔ length ≤ 2 ^ 32 - 8) ∧
    (RecordView.parse? bytes 0 = some ⟨0, bytes⟩ ↔ length ≤ 2 ^ 32 - 8) ∧
    (2 ^ 32 - 8 < length →
      size % 2 ^ 32 = 0 ∧ scanAt bytes 0 = .corrupt 0 ∨
      ∃ view, scanAt bytes 0 = .record view ∧ view.size = size % 2 ^ 32 ∧ view.stop < size) := by
  intro size bytes
  have hsize : bytes.length = size := by rw [length_writeAll, length_new]
  have hstated : bytes.wordAt 4 4 = size % 2 ^ 32 := wordAt_writeAll_size tag hwrites
  have hfits : size < 2 ^ 32 ↔ length ≤ 2 ^ 32 - 8 := paddedSize_lt_iff
  refine ⟨hsize, hstated, ?size, ?parsed, ?beyond⟩
  case size =>
    rw [hstated, hsize, ← hfits]
    omega
  case parsed =>
    rw [← hfits]
    constructor
    · intro hparsed
      obtain ⟨-, hrecord, -⟩ := RecordView.parse?_eq_some hparsed
      have hlength := hrecord.stated
      rw [hstated, hsize] at hlength
      omega
    · intro hlength
      exact (isRecord_writeAll tag hwrites hlength).parse?
  case beyond =>
    intro hlength
    have hlarge : 2 ^ 32 ≤ size := by omega
    have hscan := scanAt_writeAll tag hwrites hlarge
    by_cases hzero : size % 2 ^ 32 = 0
    · rw [if_pos hzero] at hscan
      exact .inl ⟨hzero, hscan⟩
    · rw [if_neg hzero] at hscan
      have hview : (bytes.take (size % 2 ^ 32)).length = size % 2 ^ 32 := by
        rw [List.length_take, hsize]
        omega
      refine .inr ⟨_, hscan, hview, ?_⟩
      change 0 + (bytes.take (size % 2 ^ 32)).length < size
      omega

theorem stated_size_of_draft_of_one_word :
    let writes : List WordWrite := [.uint32 8 7]
    let bytes := ((new 9 9).writeAll writes).bytes
    (∀ w ∈ writes, headerSize ≤ w.offset) ∧ (9 : Nat) ≤ 2 ^ 32 - 8 ∧
      bytes.wordAt 4 4 = bytes.length ∧ RecordView.parse? bytes 0 = some ⟨0, bytes⟩ := by
  intro writes bytes
  have hwrites : ∀ w ∈ writes, headerSize ≤ w.offset := by decide
  have hlength : (9 : Nat) ≤ 2 ^ 32 - 8 := by decide
  obtain ⟨-, -, hstated, hparsed, -⟩ := stated_size_of_draft 9 9 hwrites
  exact ⟨hwrites, hlength, hstated.mpr hlength, hparsed.mpr hlength⟩

/-- A record of 2^32 bytes states that it has none, and no record is read from it. -/
theorem large_draft_states_zero :
    let bytes := (new 1 (2 ^ 32)).bytes
    bytes.length = 2 ^ 32 ∧ bytes.wordAt 4 4 = 0 ∧ RecordView.parse? bytes 0 = none := by
  intro bytes
  have hsize : paddedSize (2 ^ 32) = 2 ^ 32 := by decide
  have hzero : paddedSize (2 ^ 32) % 2 ^ 32 = 0 := by decide
  have hnone : ∀ w ∈ ([] : List WordWrite), headerSize ≤ w.offset := by simp
  have hscan : scanAt bytes 0 = .corrupt 0 :=
    (scanAt_writeAll 1 hnone hsize.ge).trans (if_pos hzero)
  refine ⟨(length_new ..).trans hsize, ?_, ?_⟩
  · exact (wordAt_writeAll_size 1 hnone).trans hzero
  · rw [RecordView.parse?, hscan]

end Draft
end DeviceTrace
