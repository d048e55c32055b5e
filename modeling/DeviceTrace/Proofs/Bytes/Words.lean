import Mathlib.Algebra.Ring.Nat
import DeviceTrace.Bytes.LittleEndian

/-!
# Words in bytes

Reading a written word gives back the low bytes of the number, writing a word that was read gives
back its bytes, and a word depends on its own bytes only: it is the same in a longer or a shorter
byte string that has them, and laying other bytes over the string elsewhere does not change it.

A machine adds offsets in words of 64 bits and takes bytes by their places. A sum that does not fit
into a word and bytes that are not there are faults, which end a program that does not expect them.
-/

namespace DeviceTrace.Bytes

theorem toNatLE_ofNatLE (width n : Nat) : toNatLE (ofNatLE width n) = n % 256 ^ width := by
  induction width generalizing n with
  | zero => simp [ofNatLE, toNatLE, Nat.mod_one]
  | succ width ih =>
    have step : n % (256 * 256 ^ width) = n % 256 + 256 * (n / 256 % 256 ^ width) := Nat.mod_mul
    rw [ofNatLE, toNatLE, ih, Nat.pow_succ', step]
    simp

theorem ofNatLE_toNatLE (bytes : Bytes) : ofNatLE bytes.length (toNatLE bytes) = bytes := by
  induction bytes with
  | nil => rfl
  | cons b bytes ih =>
    have hlow : UInt8.ofNat (b.toNat + 256 * toNatLE bytes) = b := by
      rw [← UInt8.toNat_inj, UInt8.toNat_ofNat', Nat.add_mul_mod_self_left,
        Nat.mod_eq_of_lt b.toNat_lt]
    have hhigh : (b.toNat + 256 * toNatLE bytes) / 256 = toNatLE bytes := by
      rw [Nat.add_mul_div_left _ _ (by decide), Nat.div_eq_of_lt b.toNat_lt, Nat.zero_add]
    rw [List.length_cons, toNatLE, ofNatLE, hlow, hhigh, ih]

theorem toNatLE_lt (bytes : Bytes) : toNatLE bytes < 256 ^ bytes.length := by
  have hmod := toNatLE_ofNatLE bytes.length (toNatLE bytes)
  rw [ofNatLE_toNatLE] at hmod
  rw [hmod]
  exact Nat.mod_lt _ (Nat.pow_pos (by decide))

theorem getElem?_ofNatLE (width n i : Nat) :
    (ofNatLE width n)[i]? = if i < width then some (UInt8.ofNat (n / 256 ^ i)) else none := by
  induction width generalizing n i with
  | zero => rfl
  | succ width ih =>
    cases i with
    | zero => simp [ofNatLE]
    | succ i =>
      rw [ofNatLE, List.getElem?_cons_succ, ih, Nat.div_div_eq_div_mul, ← Nat.pow_succ']
      simp only [Nat.succ_lt_succ_iff]

theorem wordAt_append {front : Bytes} (rest : Bytes) {offset width : Nat}
    (h : offset + width ≤ front.length) :
    wordAt (front ++ rest) offset width = front.wordAt offset width := by
  have h' : offset + width ≤ (front ++ rest).length := by simp only [List.length_append]; omega
  unfold wordAt slice
  rw [if_pos h, if_pos h', List.drop_append_of_le_length (by omega),
    List.take_append_of_le_length (by simp only [List.length_drop]; omega)]

theorem wordAt_take {bytes : Bytes} {offset width n : Nat} (h : offset + width ≤ n)
    (hn : n ≤ bytes.length) : wordAt (bytes.take n) offset width = bytes.wordAt offset width := by
  have hlength : offset + width ≤ (bytes.take n).length := by
    simp only [List.length_take]; omega
  rw [← wordAt_append (bytes.drop n) hlength, List.take_append_drop]

theorem wordAt_append_right (front rest : Bytes) (offset width : Nat) :
    wordAt (front ++ rest) (front.length + offset) width = rest.wordAt offset width := by
  have hdrop : (front ++ rest).drop (front.length + offset) = rest.drop offset :=
    List.drop_length_add_append ..
  unfold wordAt slice
  rw [hdrop, Nat.add_sub_cancel_left, Nat.add_sub_cancel_left, List.length_append, Nat.add_assoc]
  simp only [Nat.add_le_add_iff_left]

theorem wordAt_drop {bytes : Bytes} {start : Nat} (h : start ≤ bytes.length)
    (offset width : Nat) : wordAt (bytes.drop start) offset width =
      bytes.wordAt (start + offset) width := by
  have hword := wordAt_append_right (bytes.take start) (bytes.drop start) offset width
  rw [List.take_append_drop, List.length_take, Nat.min_eq_left h] at hword
  exact hword.symm

theorem length_slice {bytes : Bytes} {start stop : Nat} (hstop : stop ≤ bytes.length) :
    (bytes.slice start stop).length = stop - start := by
  rw [slice, List.length_take, List.length_drop]
  omega

theorem wordAt_slice {bytes : Bytes} {start stop offset width : Nat}
    (hword : start + offset + width ≤ stop) (hstop : stop ≤ bytes.length) :
    (bytes.slice start stop).wordAt offset width = bytes.wordAt (start + offset) width := by
  have hlength : stop - start ≤ (bytes.drop start).length := by
    rw [List.length_drop]
    omega
  rw [slice, wordAt_take (by omega) hlength, wordAt_drop (by omega)]

theorem wordAt_lt (bytes : Bytes) (offset width : Nat) :
    bytes.wordAt offset width < 256 ^ width := by
  unfold wordAt
  split
  · rename_i h
    have hlt := toNatLE_lt (bytes.slice offset (offset + width))
    rwa [length_slice h, Nat.add_sub_cancel_left] at hlt
  · exact Nat.pow_pos (by decide)

/-- A written word in front of other bytes is read back. -/
theorem wordAt_ofNatLE (width n : Nat) (rest : Bytes) :
    wordAt (ofNatLE width n ++ rest) 0 width = n % 256 ^ width := by
  have hall : (ofNatLE width n).take width = ofNatLE width n :=
    List.take_of_length_le (by simp)
  rw [wordAt_append rest (by simp), ← toNatLE_ofNatLE]
  simp [wordAt, slice, hall]

theorem wordAt_congr {bytes other : Bytes} {offset width : Nat}
    (hbytes : offset + width ≤ bytes.length) (hother : offset + width ≤ other.length)
    (h : ∀ i, offset ≤ i → i < offset + width → bytes[i]? = other[i]?) :
    bytes.wordAt offset width = other.wordAt offset width := by
  unfold wordAt
  rw [if_pos hbytes, if_pos hother]
  congr 1
  refine List.ext_getElem? fun i => ?_
  simp only [slice, Nat.add_sub_cancel_left, List.getElem?_take, List.getElem?_drop]
  split
  · exact h _ (Nat.le_add_right ..) (by omega)
  · rfl

/-! ## Bytes laid over others -/

theorem getElem?_overwrite {bytes raw : Bytes} {offset : Nat}
    (h : offset + raw.length ≤ bytes.length) (i : Nat) :
    (bytes.overwrite offset raw)[i]? =
      if offset ≤ i ∧ i < offset + raw.length then raw[i - offset]? else bytes[i]? := by
  have hfront : (bytes.take offset).length = offset := by simp only [List.length_take]; omega
  unfold overwrite
  rw [if_pos h, List.append_assoc]
  by_cases hbefore : i < offset
  · rw [List.getElem?_append_left (by omega), if_neg (by omega), List.getElem?_take_of_lt hbefore]
  rw [List.getElem?_append_right (by omega), hfront]
  by_cases hwithin : i < offset + raw.length
  · rw [List.getElem?_append_left (by omega), if_pos (by omega)]
  · rw [List.getElem?_append_right (by omega), if_neg (by omega), List.getElem?_drop]
    congr 1
    omega

theorem wordAt_overwrite {bytes raw : Bytes} {offset : Nat}
    (h : offset + raw.length ≤ bytes.length) :
    (bytes.overwrite offset raw).wordAt offset raw.length = toNatLE raw := by
  unfold wordAt
  rw [if_pos (by rwa [length_overwrite])]
  congr 1
  refine List.ext_getElem? fun i => ?_
  simp only [slice, Nat.add_sub_cancel_left, List.getElem?_take, List.getElem?_drop]
  split
  · rw [getElem?_overwrite h, if_pos (by omega), Nat.add_sub_cancel_left]
  · rw [List.getElem?_eq_none (by omega)]

theorem wordAt_overwrite_of_disjoint (bytes raw : Bytes) {offset start width : Nat}
    (h : start + width ≤ offset ∨ offset + raw.length ≤ start) :
    (bytes.overwrite offset raw).wordAt start width = bytes.wordAt start width := by
  by_cases hraw : offset + raw.length ≤ bytes.length
  · by_cases hword : start + width ≤ bytes.length
    · refine wordAt_congr (by rwa [length_overwrite]) hword fun i hfirst hlast => ?_
      rw [getElem?_overwrite hraw, if_neg (by omega)]
    · unfold wordAt
      rw [if_neg (by rwa [length_overwrite]), if_neg hword]
  · unfold overwrite
    rw [if_neg hraw]

end DeviceTrace.Bytes

namespace DeviceTrace

/-! ## Sums and places in machine words -/

/-- What ends a program that counts in machine words. -/
inductive Fault
  | overflow
  | outOfRange
  deriving DecidableEq, Repr

def orFault {α : Type} (fault : Fault) : Option α → Except Fault α
  | some a => .ok a
  | none => .error fault

/-- The sum of two words, if it fits into a word. -/
def sum? (a b : UInt64) : Option UInt64 :=
  if a.toNat + b.toNat < 2 ^ 64 then some (a + b) else none

/-- The bytes from one place up to another one, if all of them are there. -/
def Bytes.range? (bytes : Bytes) (start stop : UInt64) : Option Bytes :=
  if start ≤ stop ∧ stop.toNat ≤ bytes.length then some (bytes.slice start.toNat stop.toNat)
  else none

theorem sum?_of_lt {a b : UInt64} (h : a.toNat + b.toNat < 2 ^ 64) :
    sum? a b = some (a + b) ∧ (a + b).toNat = a.toNat + b.toNat := by
  refine ⟨if_pos h, ?_⟩
  rw [UInt64.toNat_add, Nat.mod_eq_of_lt h]

theorem sum?_eq_none {a b : UInt64} (h : 2 ^ 64 ≤ a.toNat + b.toNat) : sum? a b = none :=
  if_neg (Nat.not_lt_of_le h)

namespace Bytes

variable {bytes : Bytes} {start stop : UInt64}

theorem range?_eq_some (hstart : start.toNat ≤ stop.toNat) (hstop : stop.toNat ≤ bytes.length) :
    bytes.range? start stop = some (bytes.slice start.toNat stop.toNat) :=
  if_pos ⟨UInt64.le_iff_toNat_le.mpr hstart, hstop⟩

theorem range?_eq_none (h : bytes.length < stop.toNat) : bytes.range? start stop = none :=
  if_neg fun hrange => Nat.not_le_of_lt h hrange.2

end Bytes
end DeviceTrace
