import DeviceTrace.Datum

/-!
# Enumerations written as numbers

Small enumerations of a record are stored as numbers and described by names. Each has one table,
which is read in all directions; a number outside the table reads as the default value, so every
stored number has a meaning.
-/

namespace DeviceTrace

structure CodeEntry (α : Type) where
  value : α
  code : Nat
  name : String

class Coded (α : Type) where
  table : List (CodeEntry α)

namespace Coded

variable {α : Type} [Coded α] [Inhabited α] [DecidableEq α]

def entry? (a : α) : Option (CodeEntry α) := table.find? (·.value = a)

def code (a : α) : Nat :=
  match entry? a with
  | some entry => entry.code
  | none => 0

def ofCode (n : Nat) : α :=
  match (table (α := α)).find? (·.code = n) with
  | some entry => entry.value
  | none => default

def name (a : α) : String :=
  match entry? a with
  | some entry => entry.name
  | none => ""

def ofName? (s : String) : Option α :=
  ((table (α := α)).find? (·.name = s)).map CodeEntry.value

def toDatum (a : α) : Datum := .text (name a)

/-- The value of the enumeration that a field names. -/
def ofField? (d : Datum) (field : String) : Option α := (d.field field).toText?.bind ofName?

end Coded
end DeviceTrace
