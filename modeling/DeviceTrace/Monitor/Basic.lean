import DeviceTrace.Client.Gateway
import DeviceTrace.Monitor.KindSet

/-!
# Enabling and disabling kinds

A monitor records which kinds it has enabled at the client. A kind that is already in the requested
state costs no call, and one that the client refuses stays as it was.
-/

namespace DeviceTrace

/-- How far a request to enable or disable kinds got. -/
inductive Reach
  | all
  | some
  /-- No kind is in the requested state, also because there was none. -/
  | none
  deriving DecidableEq, Repr

/-- How many kinds reached the requested state, and how many did not. -/
structure Tally where
  succeeded : Nat := 0
  failed : Nat := 0
  deriving DecidableEq, Repr

def Tally.count (t : Tally) (succeeded : Bool) : Tally :=
  if succeeded then { t with succeeded := t.succeeded + 1 } else { t with failed := t.failed + 1 }

def Tally.reach (t : Tally) : Reach :=
  if t.succeeded = 0 then .none else if t.failed = 0 then .all else .some

structure Monitor where
  enabled : EnabledKinds := .empty
  gateway : Gateway

namespace Monitor

def requestCall (enable : Bool) (context : ContextHandle) (kind : Kind) : ClientCall :=
  if enable then .enableKind context kind else .disableKind context kind

/-- Brings one kind into the requested state, and says whether it is there now. -/
def switchKind (m : Monitor) (context : ContextHandle) (enable : Bool) (kind : Kind) :
    Bool × Monitor :=
  if m.enabled.contains context kind = enable then (true, m)
  else
    let (accepted, gateway) := m.gateway.attempt (requestCall enable context kind)
    if accepted then (true, ⟨m.enabled.set context kind enable, gateway⟩)
    else (false, { m with gateway })

def switchEach (m : Monitor) (context : ContextHandle) (enable : Bool) :
    List Kind → Tally → Tally × Monitor
  | [], tally => (tally, m)
  | kind :: kinds, tally =>
    let (reached, m) := m.switchKind context enable kind
    m.switchEach context enable kinds (tally.count reached)

/-- Brings the kinds before the first `invalid` into the requested state. -/
def switchKinds (m : Monitor) (context : ContextHandle) (kinds : List Kind) (enable : Bool) :
    Reach × Monitor :=
  let (tally, m) := m.switchEach context enable (Kind.valid kinds) {}
  (tally.reach, m)

def switchSet (m : Monitor) (context : ContextHandle) (set : KindSet) (enable : Bool) :
    Reach × Monitor :=
  m.switchKinds context set.kinds enable

/-- Forgets what was recorded of a context, without a call. -/
def forget (m : Monitor) (context : ContextHandle) : Monitor :=
  { m with enabled := m.enabled.clear context }

end Monitor
end DeviceTrace
