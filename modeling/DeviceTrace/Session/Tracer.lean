import DeviceTrace.Session.Basic

/-!
# Tracers

A tracer controls the trace of one device. Its operations say whether they fit the state that the
tracer is in. Failures of the client do not stop them: they are reported, and the tracer goes on.
-/

namespace DeviceTrace

inductive TraceState
  | uninitialized | initialized | started | paused | stopped
  deriving DecidableEq, Repr

structure Tracer where
  device : DeviceId
  globalId : Int32
  context : ContextHandle
  state : TraceState := .uninitialized
  /-- The kinds that were enabled when the trace was paused. -/
  pausedKinds : List Kind := []
  deriving DecidableEq, Repr

namespace Tracer

/-- Makes the trace ready to start. Only a stopped trace cannot be made ready. -/
def prepare (t : Tracer) : Bool × Tracer :=
  match t.state with
  | .uninitialized => (true, { t with state := .initialized })
  | .stopped => (false, t)
  | .initialized | .started | .paused => (true, t)

/-- Flushes, disables every kind of the context and ends delivery. -/
def suspend (t : Tracer) (s : Session) : Tracer × Session :=
  let (_, s) := s.flush
  let kinds := s.enabledKinds t.context
  let (_, s) := s.switchKinds t.context kinds false
  ({ t with state := .paused, pausedKinds := kinds }, s.closeDelivery)

/-- Begins delivery and enables the kinds that were enabled before the pause. -/
def resume (t : Tracer) (s : Session) : Tracer × Session :=
  let (_, s) := s.openDelivery.switchKinds t.context t.pausedKinds true
  ({ t with state := .started, pausedKinds := [] }, s)

/-- Pauses a started trace, or goes on with a paused one. -/
def pause (t : Tracer) (s : Session) (begin : Bool) : Bool × Tracer × Session :=
  match begin, t.state with
  | true, .started => (true, t.suspend s)
  | false, .paused => (true, t.resume s)
  | _, _ => (false, t, s)

/-- Starts the trace, or goes on with a paused one. The source then serves all devices, and the
callback takes the place of the one that the device had, also if the trace runs already. -/
def start (t : Tracer) (s : Session) (source : BufferSource) (callback : Nat) :
    Bool × Tracer × Session :=
  let (ready, t) := t.prepare
  if !ready then (false, t, s)
  else
    let s := { s with source }.setCallback t.device (some callback)
    match t.state with
    | .initialized => (true, { t with state := .started }, s.addTrace.openDelivery)
    | .paused => (true, t.resume s)
    | .started => (true, t, s)
    | .uninitialized | .stopped => (false, t, s)

/-- Gives up what a paused trace holds: the recorded kinds of its context, its callback and its
share of the client. -/
def retire (t : Tracer) (s : Session) : Tracer × Session :=
  ({ t with state := .stopped, pausedKinds := [] },
    ((s.forgetKinds t.context).setCallback t.device none).removeTrace)

/-- Ends the trace for good. A started trace is paused first. -/
def stop (t : Tracer) (s : Session) : Tracer × Session :=
  match t.state with
  | .started => let (t, s) := t.suspend s; t.retire s
  | .paused => t.retire s
  | .uninitialized | .initialized => ({ t with state := .stopped }, s)
  | .stopped => (t, s)

/-- The session after a tracer is let go of. A trace that is running or paused is stopped. -/
def dispose (t : Tracer) (s : Session) : Session :=
  match t.state with
  | .started | .paused => (t.stop s).2
  | .uninitialized | .initialized | .stopped => s

end Tracer
end DeviceTrace
