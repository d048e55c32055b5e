import DeviceTrace.Proofs.Session.Balance

/-!
# Control of a system

Which states the traces are in, and which of their operations are accepted, is decided by these
states alone: `Control.perform` is a machine that knows no client, no device and no kind, and every
system runs as this machine does (`control_perform` for one operation, `control_run` for a run). So
two runs of the same operations agree on all of it, and on the counts of the session, whatever their
clients refuse.
-/

namespace DeviceTrace

/-! ## The states of one trace -/

namespace TraceState

/-- Whether a trace in this state can be made ready, and its state then. -/
def prepare : TraceState → Bool × TraceState
  | .uninitialized | .initialized => (true, .initialized)
  | .started => (true, .started)
  | .paused => (true, .paused)
  | .stopped => (false, .stopped)

def start : TraceState → Bool × TraceState
  | .uninitialized | .initialized | .started | .paused => (true, .started)
  | .stopped => (false, .stopped)

def pause : Bool → TraceState → Bool × TraceState
  | true, .started => (true, .paused)
  | false, .paused => (true, .started)
  | _, state => (false, state)

/-- Whatever its state is, a trace can be stopped. -/
def stop (_ : TraceState) : Bool × TraceState := (true, .stopped)

end TraceState

namespace Tracer

variable (t : Tracer) (s : Session)

theorem prepare_control : (t.prepare.1, t.prepare.2.state) = t.state.prepare := by
  unfold prepare
  cases hstate : t.state with
  | uninitialized => rfl
  | initialized | started | paused | stopped => simp [hstate, TraceState.prepare]

theorem start_control (source : BufferSource) (callback : Nat) :
    ((t.start s source callback).1, (t.start s source callback).2.1.state) = t.state.start := by
  rw [start_eq]
  cases hstate : t.state with
  | uninitialized | initialized | paused => rfl
  | started | stopped => simp [hstate, TraceState.start]

theorem pause_control (begin : Bool) :
    ((t.pause s begin).1, (t.pause s begin).2.1.state) = t.state.pause begin := by
  unfold pause
  cases begin with
  | true =>
    cases hstate : t.state with
    | started => rfl
    | uninitialized | initialized | paused | stopped => simp [hstate, TraceState.pause]
  | false =>
    cases hstate : t.state with
    | paused => rfl
    | uninitialized | initialized | started | stopped => simp [hstate, TraceState.pause]

theorem stop_control : (true, (t.stop s).1.state) = t.state.stop := by
  unfold stop
  cases hstate : t.state with
  | uninitialized | initialized | started | paused => rfl
  | stopped => simp [hstate, TraceState.stop]

end Tracer

/-! ## The states of all traces -/

/-- What decides over operations on traces: whether the owner holds the session, and the states of
the tracers in their places, none for one that was dropped. -/
@[ext] structure Control where
  held : Bool := true
  states : List (Option TraceState) := []
  deriving DecidableEq

namespace Control

/-- An operation of one trace with its answer, none if there is no such trace. -/
def command (c : Control) (index : Nat) (move : TraceState → Bool × TraceState) :
    Option Bool × Control :=
  match c.states[index]?.join with
  | some state =>
    (some (move state).1, { c with states := c.states.set index (some (move state).2) })
  | none => (none, c)

def perform (c : Control) : Operation → Option Bool × Control
  | .register .. =>
    (none, if c.held then { c with states := c.states ++ [some .uninitialized] } else c)
  | .prepare index => c.command index TraceState.prepare
  | .start index .. => c.command index TraceState.start
  | .pause index begin => c.command index (TraceState.pause begin)
  | .stop index => c.command index TraceState.stop
  | .drop index => (none, { c with states := c.states.set index none })
  | .release => (none, { c with held := false })
  | _ => (none, c)

def run (c : Control) (ops : List Operation) : Control :=
  ops.foldl (fun c op => (c.perform op).2) c

/-- What the operations of a run answer, in order. -/
def answers (c : Control) : List Operation → List (Option Bool)
  | [] => []
  | op :: ops => (c.perform op).1 :: (c.perform op).2.answers ops

/-- Whatever is neither the business of a trace nor of the owner leaves the control as it is. -/
theorem perform_of_isQuiet (c : Control) {op : Operation} (h : op.isQuiet) :
    c.perform op = (none, c) := by
  cases op <;> first | rfl | cases h

end Control

namespace System

variable {sys : System} {index : Nat}

def control (sys : System) : Control := ⟨sys.held, sys.tracers.map (Option.map Tracer.state)⟩

/-- What the operations of a run answer, in order. -/
def answers (sys : System) (ops : List Operation) : List (Option Bool) :=
  (sys.trail ops).map fun entry => (entry.1.perform entry.2).1

theorem join_states_getElem? (sys : System) (index : Nat) :
    sys.control.states[index]?.join = (sys.tracer? index).map Tracer.state := by
  unfold control tracer?
  rw [List.getElem?_map]
  rcases sys.tracers[index]? with - | - | t <;> rfl

theorem control_command {operation : Tracer → Session → Bool × Tracer × Session}
    {move : TraceState → Bool × TraceState}
    (h : ∀ t s, ((operation t s).1, (operation t s).2.1.state) = move t.state) :
    ((sys.command index operation).1, (sys.command index operation).2.control) =
      sys.control.command index move := by
  unfold Control.command
  rw [join_states_getElem?]
  cases ht : sys.tracer? index with
  | none =>
    rw [command_none ht]
    rfl
  | some t =>
    obtain ⟨hanswer, hstate⟩ := Prod.ext_iff.mp (h t sys.session)
    rw [command_some ht, Option.map_some]
    simp [control, withTracer, List.map_set, ← hanswer, ← hstate]

theorem control_dropTracer :
    (sys.dropTracer index).2.control =
      { sys.control with states := sys.control.states.set index none } := by
  unfold dropTracer
  cases ht : sys.tracer? index with
  | some t => simp [control, List.map_set]
  | none =>
    -- Where no tracer is, the place is empty already or there is none.
    have hempty := sys.join_states_getElem? index
    rw [ht, Option.map_none] at hempty
    ext1
    · rfl
    · refine (List.ext_getElem? fun j => ?_).symm
      by_cases hj : index = j
      · subst hj
        rw [List.getElem?_set_self']
        cases hget : sys.control.states[index]? with
        | none => simp
        | some place =>
          rw [hget] at hempty
          cases hempty
          rfl
      · rw [List.getElem?_set_ne hj]

/-- One operation on a system is the operation on its control: neither its answer nor what it does
to the states of the traces depends on anything else. -/
theorem control_perform (sys : System) (op : Operation) :
    ((sys.perform op).1, (sys.step op).control) = sys.control.perform op := by
  by_cases hquiet : op.isQuiet
  · obtain ⟨s', -, hstep⟩ := sys.step_quiet hquiet
    have hanswer : (sys.perform op).1 = none := by cases op <;> first | rfl | cases hquiet
    rw [hanswer, hstep, Control.perform_of_isQuiet _ hquiet]
    rfl
  · cases op with
    | register device globalId context =>
      cases hheld : sys.held with
      | true => simp [perform, step, Control.perform, control, register, hheld]
      | false => simp [perform, step, Control.perform, control, hheld]
    | prepare index => exact control_command fun t _ => t.prepare_control
    | start index source callback =>
      exact control_command fun t s => t.start_control s source callback
    | pause index begin => exact control_command fun t s => t.pause_control s begin
    | stop index => exact control_command fun t s => t.stop_control s
    | drop index => exact Prod.ext rfl control_dropTracer
    | forget context =>
      cases hheld : sys.held <;> simp [perform, step, owned, Control.perform, control, hheld]
    | release => rfl
    | _ => exact absurd rfl hquiet

theorem control_run (sys : System) (ops : List Operation) :
    (sys.run ops).control = sys.control.run ops ∧ sys.answers ops = sys.control.answers ops := by
  induction ops generalizing sys with
  | nil => exact ⟨rfl, rfl⟩
  | cons op ops ih =>
    obtain ⟨hanswer, hcontrol⟩ := Prod.mk.inj (sys.control_perform op)
    obtain ⟨hrun, hanswers⟩ := ih (sys.step op)
    constructor
    · calc (sys.run (op :: ops)).control
        _ = (sys.step op).control.run ops := hrun
        _ = sys.control.run (op :: ops) := by rw [hcontrol]; rfl
    · calc sys.answers (op :: ops)
        _ = (sys.perform op).1 :: (sys.step op).answers ops := rfl
        _ = sys.control.answers (op :: ops) := by rw [hanswers, hcontrol, hanswer]; rfl

theorem tracersIn_eq_countP (sys : System) (p : TraceState → Bool) :
    sys.tracersIn p = sys.control.states.countP (Option.any p) := by
  unfold tracersIn control
  rw [List.countP_map]
  congr 1
  funext place
  cases place <;> rfl

/-- The counts of a session are determined by the control. -/
theorem Balanced.counts_congr {sys sys' : System} (hsys : sys.Balanced) (hsys' : sys'.Balanced)
    (h : sys.control = sys'.control) :
    sys.session.activeTraces = sys'.session.activeTraces ∧
      sys.session.deliveringTraces = sys'.session.deliveringTraces := by
  constructor
  · rw [hsys.active, hsys'.active, tracersIn_eq_countP, tracersIn_eq_countP, h]
  · rw [hsys.started, hsys'.started, tracersIn_eq_countP, tracersIn_eq_countP, h]

/-- Two runs of the same operations over any two clients, whatever either of them refuses, agree
after every operation: each tracer is in the same state, the session has counted the same active
traces and the same traces that want records, and all operations so far have given the same
answers. -/
theorem runs_agree_whatever_refused {config : SessionConfig} {client client' : DeviceClient}
    {session session' : Session} (h : Session.build config client = .ok session)
    (h' : Session.build config client' = .ok session') (ops : List Operation) (n : Nat) :
    let first : System := { session }
    let first' : System := { session := session' }
    let before := ops.take n
    let sys := first.run before
    let sys' := first'.run before
    (∀ index, (sys.tracer? index).map Tracer.state = (sys'.tracer? index).map Tracer.state) ∧
      sys.session.activeTraces = sys'.session.activeTraces ∧
      sys.session.deliveringTraces = sys'.session.deliveringTraces ∧
      first.answers before = first'.answers before := by
  intro first first' before sys sys'
  obtain ⟨hcontrol, hanswers⟩ := first.control_run before
  obtain ⟨hcontrol', hanswers'⟩ := first'.control_run before
  have hsame : sys.control = sys'.control := hcontrol.trans hcontrol'.symm
  obtain ⟨hactive, hdelivering⟩ := Balanced.counts_congr
    (balanced_run (balanced_of_build h) before) (balanced_run (balanced_of_build h') before) hsame
  refine ⟨fun index => ?_, hactive, hdelivering, hanswers.trans hanswers'.symm⟩
  rw [← join_states_getElem?, ← join_states_getElem?, hsame]

/-- A willing client, and one that refuses every second call, under a trace that is started, told
which kinds to record, paused, resumed and stopped beside one that is dropped while it runs. -/
theorem runs_agree_whatever_refused_of_flaky : ∃ session session' : Session,
    Session.build {} .willing = .ok session ∧
      Session.build {} { refuses := fun n _ => if n % 2 = 0 then some "refused" else none } =
        .ok session' ∧
      let ops : List Operation := [.register 0 0 ⟨1⟩, .register 1 1 ⟨2⟩, .start 0 .session 0,
        .start 1 .session 1, .switchSet 0 .kernelExecution true, .pause 0 true, .pause 0 true,
        .pause 0 false, .drop 1, .stop 0, .start 0 .session 2]
      let answers := ({ session } : System).answers ops
      answers = ({ session := session' } : System).answers ops ∧
        answers = [none, none, some true, some true, none, some true, some false, some true, none,
          some true, some false] ∧
        (({ session } : System).run ops).session.gateway.calls ≠
          (({ session := session' } : System).run ops).session.gateway.calls := by
  obtain ⟨session, hbuild⟩ : ∃ session : Session,
      Session.build {} .willing = .ok session := ⟨_, rfl⟩
  obtain ⟨session', hbuild'⟩ : ∃ session : Session, Session.build {}
      { refuses := fun n _ => if n % 2 = 0 then some "refused" else none } = .ok session := ⟨_, rfl⟩
  refine ⟨session, session', hbuild, hbuild', ?_⟩
  intro ops answers
  have hagree := (runs_agree_whatever_refused hbuild hbuild' ops ops.length).2.2.2
  rw [List.take_length] at hagree
  subst answers
  refine ⟨hagree, ?_, ?_⟩
  · rw [build_eq hbuild]
    decide +kernel
  · rw [build_eq hbuild, build_eq hbuild']
    decide +kernel

end System
end DeviceTrace
