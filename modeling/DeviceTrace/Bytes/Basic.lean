/-!
# Byte strings

Offsets count bytes from the start and are plain natural numbers: a byte string may be asked for
bytes far past its end, and then has none.
-/

namespace DeviceTrace

abbrev Bytes := List UInt8

namespace Bytes

def zeros (n : Nat) : Bytes := List.replicate n 0

/-- The bytes from `start` up to but not including `stop`. -/
def slice (bytes : Bytes) (start stop : Nat) : Bytes := (bytes.drop start).take (stop - start)

/-- Lays `raw` over the bytes from `offset` on. Nothing changes unless it lies wholly inside. -/
def overwrite (bytes : Bytes) (offset : Nat) (raw : Bytes) : Bytes :=
  if offset + raw.length ≤ bytes.length then
    bytes.take offset ++ raw ++ bytes.drop (offset + raw.length)
  else bytes

def hexDigits : List Char := "0123456789abcdef".toList

/-- Two digits for each byte, the higher first. -/
def toHex (bytes : Bytes) : String :=
  .ofList <| bytes.flatMap fun b =>
    [hexDigits.getD (b.toNat / 16) '0', hexDigits.getD (b.toNat % 16) '0']

def ofHexDigits? : List Char → Option Bytes
  | [] => some []
  | high :: low :: rest => do
    let byte := 16 * (← hexDigits.idxOf? high) + (← hexDigits.idxOf? low)
    return UInt8.ofNat byte :: (← ofHexDigits? rest)
  | _ => none

def ofHex? (text : String) : Option Bytes := ofHexDigits? text.toList

@[simp] theorem length_zeros (n : Nat) : (zeros n).length = n := List.length_replicate

@[simp] theorem length_overwrite (bytes : Bytes) (offset : Nat) (raw : Bytes) :
    (bytes.overwrite offset raw).length = bytes.length := by
  unfold overwrite
  split
  · simp only [List.length_append, List.length_take, List.length_drop]; omega
  · rfl

end Bytes
end DeviceTrace
