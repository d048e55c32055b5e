import DeviceTrace.Stream.Records

/-!
# Trace buffers

A buffer is an allocation of fixed size of which the first bytes are valid. The producer fills it
and says how many bytes are valid; records are appended after them.
-/

namespace DeviceTrace

/-- No object is larger than half of a 64-bit address space. -/
def maxObjectSize : Nat := Nat.pow 2 63 - 1

/-- What can be allocated ends at the addresses that a process has. -/
def maxAllocation : Nat := Nat.pow 2 47

def isPowerOfTwo (n : Nat) : Bool := n = Nat.pow 2 n.log2

structure BufferLayout where
  size : Nat
  align : Nat
  deriving DecidableEq, Repr

namespace BufferLayout

/-- The alignment is a power of two, and the size stays within the largest object when it is rounded
up to the alignment. -/
def isValid (l : BufferLayout) : Bool :=
  isPowerOfTwo l.align && (l.size + l.align - 1) / l.align * l.align ≤ maxObjectSize

/-- The layout itself, if it is valid and not empty. -/
def checked (l : BufferLayout) : Except TraceError BufferLayout :=
  if l.size = 0 || !l.isValid then .error (.invalidLayout l.size l.align) else .ok l

/-- An allocation has to find an aligned place, so it takes room for its alignment as well. -/
def fits (l : BufferLayout) : Bool := l.size + l.align ≤ maxAllocation

end BufferLayout

structure TraceBuffer where
  bytes : Bytes
  validSize : Nat
  deriving DecidableEq, Repr

namespace TraceBuffer

/-- A buffer of zeros without valid bytes. -/
def allocate (layout : BufferLayout) : Except TraceError TraceBuffer := do
  let layout ← layout.checked
  if layout.fits then .ok ⟨.zeros layout.size, 0⟩ else .error (.allocation layout.size)

def capacity (b : TraceBuffer) : Nat := b.bytes.length

/-- Takes the word of the producer for how many bytes are valid, up to all of them. -/
def markValid (b : TraceBuffer) (n : Nat) : TraceBuffer := { b with validSize := min n b.capacity }

/-- Lets the producer change bytes of the allocation, which leaves open how many are valid. -/
def write (b : TraceBuffer) (offset : Nat) (raw : Bytes) : TraceBuffer :=
  { b with bytes := b.bytes.overwrite offset raw }

def validBytes (b : TraceBuffer) : Bytes := b.bytes.take b.validSize

/-- Appends an encoded record to the valid bytes, or changes nothing if it does not fit. -/
def append (b : TraceBuffer) (record : Bytes) : Bool × TraceBuffer :=
  if b.validSize + record.length ≤ b.capacity then
    (true, ⟨b.bytes.overwrite b.validSize record, b.validSize + record.length⟩)
  else (false, b)

def records (b : TraceBuffer) : List RecordView := DeviceTrace.records b.validBytes

end TraceBuffer
end DeviceTrace
