import DeviceTrace.Record.View

/-!
# Drafts of one record

A draft is a record under construction: a header followed by a payload of zeros that is filled word
by word. Its length is rounded up to a multiple of `recordAlign`, and a word that does not lie
wholly inside the draft is left out.
-/

namespace DeviceTrace

structure Draft where
  bytes : Bytes
  deriving DecidableEq, Repr

namespace Draft

/-- The length of a record that has room for `length` bytes. -/
def paddedSize (length : Nat) : Nat :=
  (max length headerSize + (recordAlign - 1)) / recordAlign * recordAlign

/-- An empty record. The header has four bytes for the length, and keeps its low 32 bits. -/
def new (tag : UInt32) (length : Nat) : Draft :=
  let size := paddedSize length
  ⟨.ofNatLE 4 tag.toNat ++ .ofNatLE 4 size ++ .zeros (size - headerSize)⟩

/-- Puts a word at an offset if it lies wholly inside. Its end is counted without a bound here,
while `Draft.tryWrite` counts it in a machine word. -/
def put (d : Draft) (offset width value : Nat) : Draft :=
  ⟨d.bytes.overwrite offset (.ofNatLE width value)⟩

def putUInt8 (d : Draft) (offset : Nat) (value : UInt8) : Draft := d.put offset 1 value.toNat

def putUInt16 (d : Draft) (offset : Nat) (value : UInt16) : Draft := d.put offset 2 value.toNat

def putUInt32 (d : Draft) (offset : Nat) (value : UInt32) : Draft := d.put offset 4 value.toNat

def putInt32 (d : Draft) (offset : Nat) (value : Int32) : Draft := d.putUInt32 offset value.toUInt32

def putUInt64 (d : Draft) (offset : Nat) (value : UInt64) : Draft := d.put offset 8 value.toNat

end Draft
end DeviceTrace
