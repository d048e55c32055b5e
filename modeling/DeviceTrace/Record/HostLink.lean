import DeviceTrace.Record.Coded
import DeviceTrace.Record.Draft

/-!
# Links to host operations

A link says which operation of the host the device records of one correlation id belong to.
-/

namespace DeviceTrace

/-- Who pushed the id of the host operation. -/
inductive LinkKind
  | invalid | unknown | openacc | custom0 | custom1 | custom2
  deriving DecidableEq, Repr, Inhabited

instance : Coded LinkKind where
  table := [⟨.invalid, 0, "Invalid"⟩, ⟨.unknown, 1, "Unknown"⟩, ⟨.openacc, 2, "Openacc"⟩,
    ⟨.custom0, 3, "Custom0"⟩, ⟨.custom1, 4, "Custom1"⟩, ⟨.custom2, 5, "Custom2"⟩]

structure HostLink where
  kind : LinkKind
  correlation : DeviceCorrelationId
  external : UInt64
  deriving DecidableEq, Repr

namespace HostLink

def layoutSize : Nat := 24

def encode (l : HostLink) : Bytes :=
  Draft.bytes <| Draft.new Kind.externalCorrelation.code layoutSize
    |>.putUInt32 8 (.ofNat (Coded.code l.kind))
    |>.putUInt32 12 l.correlation
    |>.putUInt64 16 l.external

def decode (v : RecordView) : Except TraceError HostLink :=
  v.require layoutSize
    { kind := Coded.ofCode (v.uint32At 8).toNat
      correlation := v.uint32At 12
      external := v.uint64At 16 }

end HostLink
end DeviceTrace
