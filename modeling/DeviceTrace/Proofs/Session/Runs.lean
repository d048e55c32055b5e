import DeviceTrace.Session.System

/-!
# Runs of a system

An operation is anything that the owner of the session, the holder of a tracer or the client may do
to a system, in any order. What only the owner can ask of the session has no effect once the owner
let go of it, and an operation on a tracer that is not there has none either.
-/

namespace DeviceTrace

inductive Operation
  | register (device : DeviceId) (globalId : Int32) (context : ContextHandle)
  | prepare (tracer : Nat)
  | start (tracer : Nat) (source : BufferSource) (callback : Nat)
  | pause (tracer : Nat) (begin : Bool)
  | stop (tracer : Nat)
  | drop (tracer : Nat)
  | flush (tracer : Nat)
  | clock (tracer : Nat)
  | switchSet (tracer : Nat) (set : KindSet) (enable : Bool)
  | switchCategories (tracer : Nat) (flags : UInt32) (enable : Bool)
  /-- The owner switches kinds of any context. -/
  | switchKindsOf (context : ContextHandle) (kinds : List Kind) (enable : Bool)
  | switchCategoriesOf (context : ContextHandle) (flags : UInt32) (enable : Bool)
  /-- The owner has the recorded kinds of a context forgotten. -/
  | forget (context : ContextHandle)
  | noteModule (event : ModuleEvent) (id : UInt64) (image : Bytes)
  | supply
  | takeBack (completion : Completion)
  | supplyThroughClient
  | takeBackThroughClient (completion : Completion)
  /-- A worker with this stack enters or leaves an API call. -/
  | intercept (stack : CorrelationStack) (site : ApiSite) (function : ApiFunction)
      (id : Option CorrelationId)
  /-- The client comes by buffers for its next flush, its clock goes on and it loses records. -/
  | refresh (queue : List Completion) (timestamp dropped : UInt64)
  /-- The owner lets go of the session. -/
  | release

/-- The session when the client has other buffers, another time and another number of lost records.
-/
def Session.refresh (s : Session) (queue : List Completion) (timestamp dropped : UInt64) :
    Session :=
  s.withGateway { s.gateway with client := { s.gateway.client with queue, timestamp, dropped } }

namespace System

/-- What the owner does to the session, as long as it holds it. -/
def owned (sys : System) (effect : Session → Session) : System :=
  if sys.held then { sys with session := effect sys.session } else sys

/-- What the session does for the holder of a tracer. -/
def serve (sys : System) (index : Nat) (effect : Tracer → Session → Session) : System :=
  match sys.tracer? index with
  | some tracer => { sys with session := effect tracer sys.session }
  | none => sys

/-- An operation of a tracer with its answer, none if there is no such tracer. -/
def command (sys : System) (index : Nat)
    (operation : Tracer → Session → Bool × Tracer × Session) : Option Bool × System :=
  match sys.onTracer? index operation with
  | some (answer, sys) => (some answer, sys)
  | none => (none, sys)

/-- Performs an operation. Only operations of the trace itself give an answer here. -/
def perform (sys : System) : Operation → Option Bool × System
  | .register device globalId context =>
    (none, if sys.held then sys.register device globalId context else sys)
  | .prepare index => sys.command index fun t s => (t.prepare.1, t.prepare.2, s)
  | .start index source callback => sys.command index fun t s => t.start s source callback
  | .pause index begin => sys.command index fun t s => t.pause s begin
  | .stop index => sys.command index fun t s => (true, t.stop s)
  | .drop index => (none, (sys.dropTracer index).2)
  | .flush index => (none, sys.serve index fun _ s => s.flush.2)
  | .clock index => (none, sys.serve index fun t s => (s.clock t.context).2)
  | .switchSet index set enable =>
    (none, sys.serve index fun t s => (s.switchSet t.context set enable).2)
  | .switchCategories index flags enable =>
    (none, sys.serve index fun t s => (s.switchCategories t.context flags enable).2)
  | .switchKindsOf context kinds enable =>
    (none, sys.owned fun s => (s.switchKinds context kinds enable).2)
  | .switchCategoriesOf context flags enable =>
    (none, sys.owned fun s => (s.switchCategories context flags enable).2)
  | .forget context => (none, sys.owned fun s => s.forgetKinds context)
  | .noteModule event id image => (none, sys.owned fun s => s.noteModule event id image)
  | .supply => (none, sys.owned fun s => s.supply.2)
  | .takeBack completion => (none, sys.owned fun s => s.takeBack completion)
  | .supplyThroughClient => (none, sys.supplyThroughClient.2)
  | .takeBackThroughClient completion => (none, sys.takeBackThroughClient completion)
  | .intercept stack site function id =>
    (none, { sys with session := (sys.session.onCall stack site function id).2 })
  | .refresh queue timestamp dropped =>
    (none, { sys with session := sys.session.refresh queue timestamp dropped })
  | .release => (none, sys.dropSession.2)

def step (sys : System) (op : Operation) : System := (sys.perform op).2

def run (sys : System) (ops : List Operation) : System := ops.foldl step sys

@[simp] theorem run_nil (sys : System) : sys.run [] = sys := rfl

theorem run_concat (sys : System) (ops : List Operation) (op : Operation) :
    sys.run (ops ++ [op]) = (sys.run ops).step op := by
  simp [run]

theorem run_append (sys : System) (ops more : List Operation) :
    sys.run (ops ++ more) = (sys.run ops).run more := List.foldl_append

/-- The operations of a run, each with the system that it meets. -/
def trail (sys : System) : List Operation → List (System × Operation)
  | [] => []
  | op :: ops => (sys, op) :: (sys.step op).trail ops

theorem trail_concat (sys : System) (ops : List Operation) (op : Operation) :
    sys.trail (ops ++ [op]) = sys.trail ops ++ [(sys.run ops, op)] := by
  induction ops generalizing sys with
  | nil => rfl
  | cons first ops ih => simp [trail, ih, run]

/-- An entry of a trail is an operation of the run with the state that the run has reached there. -/
theorem exists_of_mem_trail {sys : System} {ops : List Operation} {entry : System × Operation}
    (h : entry ∈ sys.trail ops) :
    ∃ before after, ops = before ++ entry.2 :: after ∧ entry.1 = sys.run before := by
  induction ops generalizing sys with
  | nil => cases h
  | cons op ops ih =>
    rcases List.mem_cons.mp h with rfl | htail
    · exact ⟨[], ops, rfl, rfl⟩
    · obtain ⟨before, after, rfl, hstate⟩ := ih htail
      exact ⟨op :: before, after, rfl, hstate⟩

theorem mem_of_mem_trail {sys : System} {ops : List Operation} {entry : System × Operation}
    (h : entry ∈ sys.trail ops) : entry.2 ∈ ops := by
  obtain ⟨before, after, rfl, -⟩ := exists_of_mem_trail h
  exact List.mem_append_right _ List.mem_cons_self

/-- What every operation of a run keeps, where it stands in the run, is kept by the run. -/
theorem run_keeps_along {P : System → Prop} {Q : System → Operation → Prop} {sys : System}
    (hstep : ∀ a op, P a → Q a op → P (a.step op)) (hsys : P sys) (ops : List Operation)
    (hops : ∀ entry ∈ sys.trail ops, Q entry.1 entry.2) : P (sys.run ops) := by
  induction ops generalizing sys with
  | nil => exact hsys
  | cons op ops ih =>
    have hfirst : Q sys op := hops (sys, op) List.mem_cons_self
    exact ih (hstep sys op hsys hfirst) fun entry hmem => hops entry (List.mem_cons_of_mem _ hmem)

end System
end DeviceTrace
