import DeviceTrace.Proofs.Host.Mirroring

/-!
# Nested calls and the correlation stack

A worker pushes the id of its operation when it enters an API function, and pops an id when it
leaves. But it does either only if it is inside of an operation at that moment. So a call leaves the
client's stack as it found it as long as operations start and finish around whole calls. A call that
is entered inside of an operation and left outside of one leaves its id behind, and a call that is
entered outside and left inside takes the id of a call around it away.
-/

namespace DeviceTrace

/-- What a worker does as far as correlation goes. -/
inductive WorkerStep
  | startOperation
  | finishOperation
  | call (site : ApiSite) (function : ApiFunction)

/-- A worker with its part of the correlation stack, and the session that handles its calls. -/
structure Workplace where
  session : Session
  worker : HostWorker := {}
  stack : CorrelationStack := {}

namespace Workplace

def step (w : Workplace) : WorkerStep → Workplace
  | .startOperation =>
    let (_, worker, counters) := w.worker.startOperation w.session.counters
    { w with worker, session := { w.session with counters } }
  | .finishOperation => { w with worker := w.worker.finishOperation.2 }
  | .call site function =>
    let (stack, session) := w.session.onCall w.stack site function w.worker.operation
    { w with stack, session }

def run (w : Workplace) (steps : List WorkerStep) : Workplace := steps.foldl step w

theorem run_append (w : Workplace) (steps more : List WorkerStep) :
    w.run (steps ++ more) = (w.run steps).run more := List.foldl_append

/-- The correlation ids that the client holds, the latest first. -/
def correlation (w : Workplace) : List UInt64 := w.session.gateway.client.correlation

end Workplace

/-- Steps in which every call that is entered is left again, within the call that it is made in. -/
inductive Nested : List WorkerStep → Prop
  | nil : Nested []
  | startOperation {steps : List WorkerStep} : Nested steps → Nested (.startOperation :: steps)
  | finishOperation {steps : List WorkerStep} : Nested steps → Nested (.finishOperation :: steps)
  | call (function : ApiFunction) {inner steps : List WorkerStep} : Nested inner → Nested steps →
      Nested (.call .enter function :: (inner ++ .call .exit function :: steps))

/-- The steps hold a call of the function that is entered after `before` and left after `inner`. -/
structure CallAt (steps before : List WorkerStep) (function : ApiFunction)
    (inner : List WorkerStep) : Prop where
  nested : Nested inner
  split : ∃ after,
    steps = before ++ .call .enter function :: (inner ++ .call .exit function :: after)

namespace CallAt

variable {steps before inner nested : List WorkerStep} {function other : ApiFunction}

theorem cons (h : CallAt steps before function inner) (step : WorkerStep) :
    CallAt (step :: steps) (step :: before) function inner := by
  obtain ⟨after, rfl⟩ := h.split
  exact ⟨h.nested, after, rfl⟩

theorem append_left (h : CallAt steps before function inner) (more : List WorkerStep) :
    CallAt (more ++ steps) (more ++ before) function inner := by
  obtain ⟨after, rfl⟩ := h.split
  exact ⟨h.nested, after, by simp⟩

theorem append_right (h : CallAt steps before function inner) (more : List WorkerStep) :
    CallAt (steps ++ more) before function inner := by
  obtain ⟨after, rfl⟩ := h.split
  exact ⟨h.nested, after ++ more, by simp⟩

/-- A call within a call is one of all the steps. -/
theorem within (hcall : CallAt steps before function inner) {place nested : List WorkerStep}
    {other : ApiFunction} (h : CallAt inner place other nested) :
    CallAt steps (before ++ .call .enter function :: place) other nested := by
  obtain ⟨after, rfl⟩ := hcall.split
  have hinner := h.append_right (.call .exit function :: after)
  exact (hinner.cons (.call .enter function)).append_left before

theorem length_lt (h : CallAt steps before function inner) : inner.length < steps.length := by
  obtain ⟨after, rfl⟩ := h.split
  simp
  omega

end CallAt

/-! ## What a call does to the stack -/

namespace Workplace

variable {w : Workplace} {below : List UInt64} {function : ApiFunction}
  {inner steps : List WorkerStep}

/-- The worker's list and the gateway of the session. -/
def correlator (w : Workplace) : Correlator := ⟨w.stack, w.session.gateway⟩

/-- The worker's list is the upper part of the stack of a client that refuses nothing. -/
structure Mirrors (below : List UInt64) (w : Workplace) : Prop where
  willing : w.session.gateway.client.Willing
  correlation : w.correlation = w.stack.pushed.map CorrelationId.raw ++ below

theorem Mirrors.inStep (h : w.Mirrors below) : w.correlator.InStep below :=
  ⟨fun n => h.willing n _, h.correlation⟩

/-- What becomes of the worker's list when a call is entered or left. -/
def pushedAfter (w : Workplace) (function : ApiFunction) : ApiSite → List CorrelationId
  | .enter => if w.session.config.filter.allows function then
      w.worker.operation.toList ++ w.stack.pushed else w.stack.pushed
  | .exit => if w.session.config.filter.allows function ∧ w.worker.operation.isSome then
      w.stack.pushed.tail else w.stack.pushed

theorem Mirrors.call (h : w.Mirrors below) (site : ApiSite) (function : ApiFunction) :
    (w.step (.call site function)).Mirrors below ∧
      (w.step (.call site function)).stack.pushed = w.pushedAfter function site := by
  let callback : ApiCallback := ⟨w.session.config.filter, site, function, w.worker.operation⟩
  obtain ⟨calls, hcalls, -⟩ := Session.makes_onCall w.session.gateway w.stack
    w.session.config.filter site function w.worker.operation
  obtain ⟨-, -, hpushed, -⟩ := w.correlator.turn_step callback
  refine ⟨⟨hcalls.willing h.willing, (h.inStep.step callback).correlation⟩, hpushed.trans ?_⟩
  have haccepts (call : ClientCall) : w.session.gateway.client.wouldAccept call := by
    simp [DeviceClient.wouldAccept, h.willing _ call]
  unfold Correlator.pushedAfter pushedAfter
  cases hoperation : w.worker.operation with
  | none => cases site <;> simp [callback, hoperation, correlator]
  | some id => cases site <;> simp [callback, hoperation, correlator, haccepts]

theorem Mirrors.run (h : w.Mirrors below) (steps : List WorkerStep) :
    (w.run steps).Mirrors below := by
  induction steps generalizing w with
  | nil => exact h
  | cons step steps ih =>
    cases step with
    | startOperation | finishOperation => exact ih ⟨h.willing, h.correlation⟩
    | call site function => exact ih (h.call site function).1

/-- What the client holds says what the worker has pushed. -/
theorem Mirrors.correlation_eq_iff {w' : Workplace} (h : w.Mirrors below) (h' : w'.Mirrors below) :
    w'.correlation = w.correlation ↔ w'.stack.pushed = w.stack.pushed :=
  h.inStep.correlation_eq_iff h'.inStep

theorem config_run (w : Workplace) (steps : List WorkerStep) :
    (w.run steps).session.config = w.session.config := by
  induction steps generalizing w with
  | nil => rfl
  | cons step steps ih => exact (ih _).trans (by cases step <;> rfl)

/-! ## Calls that restore the stack -/

/-- The state of the worker when it is about to leave a call that it enters now. -/
def leaving (w : Workplace) (function : ApiFunction) (inner : List WorkerStep) : Workplace :=
  w.run (.call .enter function :: inner)

/-- After the call the client holds the ids that it holds now. -/
def Restores (w : Workplace) (function : ApiFunction) (inner : List WorkerStep) : Prop :=
  ((w.leaving function inner).step (.call .exit function)).correlation = w.correlation

/-- The worker enters and leaves the call inside of operations, or outside of any. In the latter
case it may also leave it inside of one, as long as it has no id that it could pop. -/
def Paired (w : Workplace) (function : ApiFunction) (inner : List WorkerStep) : Prop :=
  w.worker.operation.isSome = (w.leaving function inner).worker.operation.isSome ∨
    w.worker.operation = none ∧ w.stack.pushed = []

instance (w : Workplace) (function : ApiFunction) (inner : List WorkerStep) :
    Decidable (w.Restores function inner) :=
  inferInstanceAs (Decidable (_ = _))

instance (w : Workplace) (function : ApiFunction) (inner : List WorkerStep) :
    Decidable (w.Paired function inner) :=
  inferInstanceAs (Decidable (_ ∨ _))

/-- Nested steps leave the worker's list as it is if every call in them restores the stack. -/
theorem Mirrors.pushed_nested (h : w.Mirrors below) (hinner : Nested inner)
    (hcalls : ∀ place other nested, CallAt inner place other nested →
      (w.run place).Restores other nested) : (w.run inner).stack.pushed = w.stack.pushed := by
  induction hinner generalizing w with
  | nil => rfl
  | startOperation _ ih | finishOperation _ ih =>
    exact ih ⟨h.willing, h.correlation⟩ fun place other nested hcall =>
      hcalls _ other nested (hcall.cons _)
  | @call function inner steps hinner hsteps _ ih =>
    -- the call is undone as a whole, whatever is done in it
    let called := (w.leaving function inner).step (.call .exit function)
    have hcalled : called = w.run (.call .enter function :: (inner ++ [.call .exit function])) := by
      rw [← List.cons_append, run_append]
      rfl
    have hmirrors : called.Mirrors below := hcalled ▸ h.run _
    have hrestored : called.stack.pushed = w.stack.pushed :=
      (h.correlation_eq_iff hmirrors).mp (hcalls [] function inner ⟨hinner, steps, rfl⟩)
    have hrun (more : List WorkerStep) :
        w.run (.call .enter function :: (inner ++ .call .exit function :: more)) =
          called.run more := by
      rw [hcalled, ← run_append]
      simp
    rw [hrun, ← hrestored]
    refine ih hmirrors fun place other nested hcall => ?_
    rw [← hrun]
    have hmore := hcall.append_left (.call .enter function :: (inner ++ [.call .exit function]))
    exact hcalls _ other nested (by simpa using hmore)

theorem Mirrors.restores_iff (h : w.Mirrors below) (hinner : Nested inner)
    (hcalls : ∀ place other nested, CallAt inner place other nested →
      (w.run (.call .enter function :: place)).Restores other nested) :
    w.Restores function inner ↔
      (w.session.config.filter.allows function = true → w.Paired function inner) := by
  obtain ⟨hentered, hpushed⟩ := h.call .enter function
  have hleaving : (w.leaving function inner).Mirrors below := h.run _
  obtain ⟨hleft, hpopped⟩ := hleaving.call .exit function
  have hkept : (w.leaving function inner).stack.pushed = w.pushedAfter function .enter :=
    (hentered.pushed_nested hinner hcalls).trans hpushed
  have hconfig : (w.leaving function inner).session.config = w.session.config := w.config_run _
  unfold Restores Paired
  rw [h.correlation_eq_iff hleft, hpopped]
  unfold pushedAfter at hkept ⊢
  rw [hconfig, hkept]
  cases w.session.config.filter.allows function with
  | false => simp
  | true =>
    cases w.worker.operation with
    | none =>
      cases (w.leaving function inner).worker.operation with
      | none => simp
      | some id => cases w.stack.pushed <;> simp
    | some entered =>
      cases (w.leaving function inner).worker.operation with
      | none => simp
      | some left => simp

/-- Let a worker that has pushed nothing yet do any steps in a session whose client refuses nothing.
Every call in them leaves the client with the ids that it held when the call was entered, if and
only if every call that is correlated is entered and left inside of operations, or entered and left
outside of any, or entered outside while the worker has no id pushed. -/
theorem calls_restore_iff (session : Session) (worker : HostWorker)
    (hwilling : session.gateway.client.Willing) (steps : List WorkerStep) :
    let w : Workplace := { session, worker }
    (∀ before function inner, CallAt steps before function inner →
        (w.run before).Restores function inner) ↔
      ∀ before function inner, CallAt steps before function inner →
        session.config.filter.allows function = true → (w.run before).Paired function inner := by
  intro w
  have hw : w.Mirrors session.gateway.client.correlation := ⟨hwilling, rfl⟩
  have hiff {before inner : List WorkerStep} {function : ApiFunction}
      (hcall : CallAt steps before function inner)
      (hinner : ∀ place other nested, CallAt inner place other nested →
        (w.run (before ++ .call .enter function :: place)).Restores other nested) :
      (w.run before).Restores function inner ↔
        (session.config.filter.allows function = true → (w.run before).Paired function inner) := by
    have hrestores : (w.run before).Restores function inner ↔
        ((w.run before).session.config.filter.allows function = true →
          (w.run before).Paired function inner) := by
      refine (hw.run before).restores_iff hcall.nested fun place other nested h => ?_
      rw [← run_append]
      exact hinner place other nested h
    rwa [config_run] at hrestores
  constructor
  · intro hrestores before function inner hcall
    exact (hiff hcall fun place other nested h => hrestores _ other nested (hcall.within h)).mp
      (hrestores before function inner hcall)
  · intro hpaired before function inner hcall
    -- the calls within a call are shorter than what is within it
    induction hlength : inner.length using Nat.strongRecOn
      generalizing before function inner with
    | ind length ih =>
      subst hlength
      exact (hiff hcall fun place other nested h =>
        ih nested.length h.length_lt _ other nested (hcall.within h) rfl).mpr
          (hpaired before function inner hcall)

/-- A call that is entered between two operations and left in the second takes away the id of the
call around it, which was entered in the first. -/
theorem call_takes_outer_id :
    let session : Session := { config := {}, monitor := { gateway := { client := .willing } } }
    let w : Workplace := { session }
    let before : List WorkerStep :=
      [.startOperation, .call .enter .launchKernel, .finishOperation]
    let steps : List WorkerStep := before ++ [.call .enter .memcpyHtoD, .startOperation,
      .call .exit .memcpyHtoD, .call .exit .launchKernel]
    session.gateway.client.Willing ∧ Nested steps ∧
      session.config.filter.allows .launchKernel ∧ session.config.filter.allows .memcpyHtoD ∧
      CallAt steps before .memcpyHtoD [.startOperation] ∧ (w.run before).correlation = [1] ∧
      (((w.run before).leaving .memcpyHtoD [.startOperation]).step
        (.call .exit .memcpyHtoD)).correlation = [] := by
  refine ⟨fun _ _ => rfl, ?nested, rfl, rfl, ⟨.startOperation .nil, _, rfl⟩, ?_⟩
  case nested =>
    exact .startOperation (.call .launchKernel
      (.finishOperation (.call .memcpyHtoD (.startOperation .nil) .nil)) .nil)
  decide +kernel

/-- An operation that finishes within a call leaves its id with the client. -/
theorem calls_restore_iff_unfinished :
    let session : Session := { config := {}, monitor := { gateway := { client := .willing } } }
    let w : Workplace := { session }
    ¬ ∀ before function inner, CallAt [.startOperation, .call .enter .launchKernel,
        .finishOperation, .call .exit .launchKernel] before function inner →
      (w.run before).Restores function inner := by
  intro session w hrestores
  have hcall : CallAt [.startOperation, .call .enter .launchKernel, .finishOperation,
      .call .exit .launchKernel] [.startOperation] .launchKernel [.finishOperation] :=
    ⟨.finishOperation .nil, [], rfl⟩
  have hpaired := (calls_restore_iff session {} (fun _ _ => rfl) _).mp hrestores _ _ _ hcall rfl
  revert hpaired
  decide +kernel

end Workplace
end DeviceTrace
