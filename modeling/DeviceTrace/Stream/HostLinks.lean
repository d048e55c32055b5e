import Std.Data.TreeMap
import DeviceTrace.Record.Basic

/-!
# Attributing records to host operations

A link record names the host operation of a correlation id, and of two links for one id the later
counts. Every record that carries a correlation id belongs to the operation linked to it.
-/

namespace DeviceTrace

/-- The links seen so far. -/
structure HostLinks where
  operations : Std.TreeMap DeviceCorrelationId UInt64 := {}

namespace HostLinks

def learn (l : HostLinks) (link : HostLink) : HostLinks :=
  ⟨l.operations.insert link.correlation link.external⟩

def operation? (l : HostLinks) (id : DeviceCorrelationId) : Option UInt64 := l.operations[id]?

def operationOf? (l : HostLinks) (record : Record) : Option UInt64 :=
  record.correlation?.bind l.operation?

/-- The number of correlation ids with a link. -/
def size (l : HostLinks) : Nat := l.operations.size

def isEmpty (l : HostLinks) : Bool := l.operations.isEmpty

/-- Takes in one record of a stream: a link is learnt, and of any record that can be decoded the
host operation is told. -/
def resolve (l : HostLinks) (view : RecordView) : Except TraceError (Option UInt64) × HostLinks :=
  match Record.decode view with
  | .error e => (.error e, l)
  | .ok record =>
    let l := match record with
      | .hostLink link => l.learn link
      | _ => l
    (.ok (l.operationOf? record), l)

end HostLinks
end DeviceTrace
