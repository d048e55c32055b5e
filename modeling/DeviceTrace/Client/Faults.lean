import DeviceTrace.Client.Basic

/-!
# Clients with faults

A simulated client refuses calls by name: whole functions that fail, and kinds that cannot be
enabled or disabled.
-/

namespace DeviceTrace

structure ClientFaults where
  functions : List String := []
  kinds : List Kind := []
  deriving DecidableEq, Repr

namespace ClientFaults

/-- The message for a call, if it is refused. A failing function is found before a kind without
support. -/
def refusal? (f : ClientFaults) (call : ClientCall) : Option String :=
  if call.function ∈ f.functions then some "injected failure"
  else match call.kind? with
    | some kind => if kind ∈ f.kinds then some (kind.label ++ " not supported") else none
    | none => none

end ClientFaults

def DeviceClient.withFaults (c : DeviceClient) (faults : ClientFaults) : DeviceClient :=
  { c with refuses := fun _ call => faults.refusal? call }

end DeviceTrace
