import DeviceTrace.Bytes.Basic

/-!
# Little-endian words

Every field of a record is a word of one, two, four or eight bytes, least significant byte first.
Writing keeps the low bytes of a number.
-/

namespace DeviceTrace.Bytes

/-- The `width` low bytes of a number. -/
def ofNatLE : (width : Nat) → Nat → Bytes
  | 0, _ => []
  | width + 1, n => UInt8.ofNat n :: ofNatLE width (n / 256)

def toNatLE : Bytes → Nat
  | [] => 0
  | b :: bs => b.toNat + 256 * toNatLE bs

/-- The word of `width` bytes at `offset`, zero where the bytes do not reach that far. -/
def wordAt (bytes : Bytes) (offset width : Nat) : Nat :=
  if offset + width ≤ bytes.length then toNatLE (bytes.slice offset (offset + width)) else 0

@[simp] theorem length_ofNatLE (width n : Nat) : (ofNatLE width n).length = width := by
  induction width generalizing n with
  | zero => rfl
  | succ width ih => simp [ofNatLE, ih]

end DeviceTrace.Bytes
