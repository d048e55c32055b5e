import DeviceTrace.Session.Tracer

/-!
# A session and its tracers

Tracers are numbered in the order in which their devices were registered. The session lives as long
as its owner or one of the tracers holds it; after that, callbacks that the client may still have
give it no buffers and free whatever it hands them.
-/

namespace DeviceTrace

structure System where
  session : Session
  /-- Whether the owner still holds the session. -/
  held : Bool := true
  /-- A tracer that was dropped leaves its place empty. -/
  tracers : List (Option Tracer) := []

namespace System

def alive (sys : System) : Bool := sys.held || sys.tracers.any Option.isSome

/-- Registers a device and makes its tracer. -/
def register (sys : System) (id : DeviceId) (globalId : Int32) (context : ContextHandle) : System :=
  { sys with
    session := sys.session.register id globalId context
    tracers := sys.tracers ++ [some { device := id, globalId, context }] }

def tracer? (sys : System) (index : Nat) : Option Tracer := sys.tracers[index]?.join

/-- Runs an operation of one tracer, if there is such a tracer. -/
def onTracer? {α : Type} (sys : System) (index : Nat)
    (operation : Tracer → Session → α × Tracer × Session) : Option (α × System) :=
  (sys.tracer? index).map fun tracer =>
    let (answer, tracer, session) := operation tracer sys.session
    (answer, { sys with session, tracers := sys.tracers.set index (some tracer) })

/-- Drops a tracer, and says whether there was one. -/
def dropTracer (sys : System) (index : Nat) : Bool × System :=
  match sys.tracer? index with
  | some tracer =>
    (true, { sys with
      session := tracer.dispose sys.session
      tracers := sys.tracers.set index none })
  | none => (false, sys)

/-- Drops all tracers, the oldest first. -/
def dropAll (sys : System) : System :=
  (List.range sys.tracers.length).foldl (fun sys index => (sys.dropTracer index).2) sys

/-- Lets the owner drop the session, and says whether it held it. -/
def dropSession (sys : System) : Bool × System := (sys.held, { sys with held := false })

def supplyThroughClient (sys : System) : Option TraceBuffer × System :=
  if sys.alive then
    let (buffer, session) := sys.session.supplyThroughClient
    (buffer, { sys with session })
  else (none, sys)

def takeBackThroughClient (sys : System) (c : Completion) : System :=
  if sys.alive then { sys with session := sys.session.takeBackThroughClient c } else sys

end System
end DeviceTrace
