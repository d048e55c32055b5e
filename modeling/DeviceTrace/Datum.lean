/-!
# Data with named fields

The form in which records and reports are exchanged with other tools: trees of numbers, texts and
fields. An absent number reads as zero and an absent flag as unset, so that short descriptions of
mostly empty records can be read as well.
-/

namespace DeviceTrace

inductive Datum
  | absent
  | flag (set : Bool)
  | number (value : Int)
  | text (value : String)
  | list (items : List Datum)
  | fields (entries : List (String × Datum))

namespace Datum

def ofUInt64 (n : UInt64) : Datum := .number n.toNat
def ofUInt32 (n : UInt32) : Datum := .number n.toNat
def ofUInt16 (n : UInt16) : Datum := .number n.toNat
def ofInt32 (n : Int32) : Datum := .number n.toInt

def ofOption {α : Type} (describe : α → Datum) : Option α → Datum
  | some a => describe a
  | none => .absent

def field (d : Datum) (name : String) : Datum :=
  match d with
  | .fields entries => (entries.lookup name).getD .absent
  | _ => .absent

def toInt? : Datum → Option Int
  | .absent => some 0
  | .number n => some n
  | _ => none

def toBool? : Datum → Option Bool
  | .absent => some false
  | .flag b => some b
  | _ => none

def toText? : Datum → Option String
  | .text s => some s
  | _ => none

def toList? : Datum → Option (List Datum)
  | .absent => some []
  | .list items => some items
  | _ => none

/-- The datum itself, none if it is absent. -/
def present? : Datum → Option Datum
  | .absent => none
  | d => some d

def toUInt32? (d : Datum) : Option UInt32 := d.toInt?.map fun n => .ofNat n.toNat

def flag? (d : Datum) (name : String) : Option Bool := (d.field name).toBool?
def uint64? (d : Datum) (name : String) : Option UInt64 :=
  (d.field name).toInt?.map fun n => .ofNat n.toNat
def uint32? (d : Datum) (name : String) : Option UInt32 := (d.field name).toUInt32?
def uint16? (d : Datum) (name : String) : Option UInt16 :=
  (d.field name).toInt?.map fun n => .ofNat n.toNat
def int32? (d : Datum) (name : String) : Option Int32 := (d.field name).toInt?.map .ofInt

end Datum
end DeviceTrace
