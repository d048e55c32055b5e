import DeviceTrace.Proofs.Host.Mirroring

/-!
# Calls whose pushes are refused

A worker does not keep an id that the client refuses, but it keeps no note of the refusal either.
When it leaves the call it therefore pops whatever id it has pushed last, and that is the id of a
call around it. So calls leave the client's stack as they found it exactly as long as pushes are
refused only to a worker that has no id pushed.
-/

namespace DeviceTrace

/-- Calls that a worker makes one after the other. Each has the id with which it is entered and
left, and the calls that are made within it. -/
inductive ApiCalls
  | nil
  | call (function : ApiFunction) (id : CorrelationId) (inner rest : ApiCalls)

namespace ApiCallback

variable (filter : CallFilter) (function : ApiFunction) (id : CorrelationId)

def entering : ApiCallback := ⟨filter, .enter, function, some id⟩

def leaving : ApiCallback := ⟨filter, .exit, function, some id⟩

end ApiCallback

namespace ApiCalls

variable (filter : CallFilter)

/-- The callbacks of the calls, properly nested. -/
def callbacks : ApiCalls → List ApiCallback
  | nil => []
  | call function id inner rest =>
    .entering filter function id ::
      (inner.callbacks ++ .leaving filter function id :: rest.callbacks)

/-- The state after a call and the calls within it. -/
def after (function : ApiFunction) (id : CorrelationId) (inner : ApiCalls) (c : Correlator) :
    Correlator :=
  ((c.step (.entering filter function id)).run (inner.callbacks filter)).step
    (.leaving filter function id)

/-- After every call the client holds the ids that it held just before the call was entered. -/
def Restored : ApiCalls → Correlator → Prop
  | nil, _ => True
  | call function id inner rest, c =>
    (inner.after filter function id c).correlation = c.correlation ∧
      inner.Restored (c.step (.entering filter function id)) ∧
      rest.Restored (inner.after filter function id c)

/-- The client refuses an id of a correlated call only while the worker has no id pushed. -/
def Guarded : ApiCalls → Correlator → Prop
  | nil, _ => True
  | call function id inner rest, c =>
    (filter.allows function → c.gateway.client.wouldAccept (.pushCorrelation id) = false →
        c.stack.pushed = []) ∧
      inner.Guarded (c.step (.entering filter function id)) ∧
      rest.Guarded (inner.after filter function id c)

instance decidableRestored : (calls : ApiCalls) → (c : Correlator) →
    Decidable (calls.Restored filter c)
  | nil, _ => inferInstanceAs (Decidable True)
  | call function id inner rest, c =>
    have := decidableRestored inner (c.step (.entering filter function id))
    have := decidableRestored rest (inner.after filter function id c)
    inferInstanceAs (Decidable (_ ∧ _ ∧ _))

instance decidableGuarded : (calls : ApiCalls) → (c : Correlator) →
    Decidable (calls.Guarded filter c)
  | nil, _ => inferInstanceAs (Decidable True)
  | call function id inner rest, c =>
    have := decidableGuarded inner (c.step (.entering filter function id))
    have := decidableGuarded rest (inner.after filter function id c)
    inferInstanceAs (Decidable ((_ → _ → _) ∧ _ ∧ _))

variable {filter} {c : Correlator} {below : List UInt64} {function : ApiFunction}
  {id : CorrelationId} {inner : ApiCalls}

theorem run_call (rest : ApiCalls) : c.run ((call function id inner rest).callbacks filter) =
    (inner.after filter function id c).run (rest.callbacks filter) := by
  show c.run (.entering filter function id ::
    (inner.callbacks filter ++ .leaving filter function id :: rest.callbacks filter)) = _
  rw [← List.cons_append, Correlator.run_append]
  rfl

theorem inStep_after (h : c.InStep below) : (inner.after filter function id c).InStep below := by
  have hleft := ((h.step (.entering filter function id)).run (inner.callbacks filter)).step
    (.leaving filter function id)
  exact hleft

/-- Calls that leave the client as they found it leave the worker's list as they found it. -/
theorem pushed_run (h : c.InStep below) {calls : ApiCalls} (hcalls : calls.Restored filter c) :
    (c.run (calls.callbacks filter)).stack.pushed = c.stack.pushed := by
  induction calls generalizing c with
  | nil => rfl
  | call function id inner rest _ ih =>
    obtain ⟨hrestored, -, hrest⟩ := hcalls
    rw [run_call, ih (inStep_after h) hrest]
    exact (h.correlation_eq_iff (inStep_after h)).mp hrestored

theorem after_restores_iff (h : c.InStep below)
    (hinner : inner.Restored filter (c.step (.entering filter function id))) :
    (inner.after filter function id c).correlation = c.correlation ↔
      (filter.allows function → c.gateway.client.wouldAccept (.pushCorrelation id) = false →
        c.stack.pushed = []) := by
  obtain ⟨-, -, hentered, -⟩ := c.turn_step (.entering filter function id)
  obtain ⟨-, -, hleft, -⟩ :=
    ((c.step (.entering filter function id)).run (inner.callbacks filter)).turn_step
      (.leaving filter function id)
  have hafter : (inner.after filter function id c).stack.pushed = _ := hleft
  rw [h.correlation_eq_iff (inStep_after h), hafter]
  unfold Correlator.pushedAfter at hentered ⊢
  rw [pushed_run (h.step _) hinner, hentered]
  dsimp only [ApiCallback.entering, ApiCallback.leaving]
  by_cases hallowed : filter.allows function
  · by_cases haccepts : c.gateway.client.wouldAccept (.pushCorrelation id)
    · simp [hallowed, haccepts]
    · cases c.stack.pushed <;> simp [hallowed, haccepts]
  · simp [hallowed]

/-- Let a worker that has pushed nothing make any calls at a client that refuses no pop. Every call
leaves the client with the ids that it held when the call was entered, if and only if no id of a
correlated call is refused while the worker has an id pushed. -/
theorem restored_iff (filter : CallFilter) (gateway : Gateway)
    (hpops : ∀ n, gateway.client.refuses n .popCorrelation = none) (calls : ApiCalls) :
    calls.Restored filter { gateway } ↔ calls.Guarded filter { gateway } := by
  have hstart : Correlator.InStep gateway.client.correlation { gateway } := ⟨hpops, rfl⟩
  generalize ({ gateway } : Correlator) = c at hstart ⊢
  induction calls generalizing c with
  | nil => exact Iff.rfl
  | call function id inner rest ihinner ihrest =>
    have hinner := ihinner (c.step (.entering filter function id)) (hstart.step _)
    have hrest := ihrest (inner.after filter function id c) (inStep_after hstart)
    constructor
    · rintro ⟨hcall, hwithin, hlater⟩
      exact ⟨(after_restores_iff hstart hwithin).mp hcall, hinner.mp hwithin, hrest.mp hlater⟩
    · rintro ⟨hcall, hwithin, hlater⟩
      have hwithin := hinner.mpr hwithin
      exact ⟨(after_restores_iff hstart hwithin).mpr hcall, hwithin, hrest.mpr hlater⟩

/-- A copy within a launch whose id the client refuses takes the id of the launch away. -/
theorem refused_push_takes_outer_id :
    let client : DeviceClient := { refuses := fun n call =>
      if n = 1 ∧ call ≠ .popCorrelation then some "injected failure" else none }
    let outer : CorrelationId := ⟨1, by decide⟩
    let inner : CorrelationId := ⟨2, by decide⟩
    let start : Correlator := { gateway := { client } }
    let launched := start.step (.entering .standard .launchKernel outer)
    (∀ n, client.refuses n .popCorrelation = none) ∧
      CallFilter.standard.allows .launchKernel ∧ CallFilter.standard.allows .memcpyHtoD ∧
      launched.correlation = [1] ∧
      (nil.after .standard .memcpyHtoD inner launched).correlation = [] ∧
      ¬ (call .launchKernel outer (call .memcpyHtoD inner nil nil) nil).Restored .standard
        start := by
  refine ⟨fun n => by simp, ?_⟩
  decide +kernel

/-- An id that is refused to a worker that has none pushed does no harm to the calls within. -/
theorem restored_iff_outermost :
    let client : DeviceClient := { refuses := fun n call =>
      if n = 0 ∧ call ≠ .popCorrelation then some "injected failure" else none }
    let calls : ApiCalls := call .launchKernel ⟨1, by decide⟩
      (call .memcpyHtoD ⟨2, by decide⟩ nil nil) (call .memcpyPeer ⟨3, by decide⟩ nil nil)
    (∀ n, client.refuses n .popCorrelation = none) ∧
      client.wouldAccept (.pushCorrelation ⟨1, by decide⟩) = false ∧
      calls.Restored .standard { gateway := { client } } := by
  intro client calls
  have hpops (n : Nat) : client.refuses n .popCorrelation = none := by simp [client]
  have hguarded : calls.Guarded .standard { gateway := { client } } := by decide +kernel
  exact ⟨hpops, by decide, (restored_iff .standard { client } hpops calls).mpr hguarded⟩

end ApiCalls
end DeviceTrace
