import DeviceTrace.Client.Gateway

/-!
# The calls that a gateway makes

A session works on its client through calls only. What lies between two states of a gateway is
therefore a list of calls, and what the client keeps follows from this list: the calls in the
journal, the policy by which it refuses, and, as long as it refuses nothing, its callbacks and its
enabled kinds.
-/

namespace DeviceTrace

def Event.call? : Event → Option ClientCall
  | .call c _ => some c
  | _ => none

/-- The events of one call: the call, and the report of its failure. -/
def ClientCall.events (call : ClientCall) : Except TraceError call.Reply → List Event
  | .ok _ => [.call call none]
  | .error e => [.call call (some e), .failure (e.report call.function)]

/-- Whether a call installs callbacks or takes hold of the client as a whole. -/
def ClientCall.isLifecycle : ClientCall → Bool
  | .registerCallbacks _ | .subscribe | .unsubscribe | .finalize => true
  | _ => false

/-- Whether a call leaves the callbacks, the hold on the client and the enabled kinds alone. -/
def ClientCall.isNeutral (call : ClientCall) : Bool := !call.isLifecycle && call.kind?.isNone

theorem ClientCall.kind?_of_isLifecycle {call : ClientCall} (h : call.isLifecycle) :
    call.kind? = none := by
  cases call <;> first | rfl | cases h

theorem ClientCall.kind?_of_isNeutral {call : ClientCall} (h : call.isNeutral) :
    call.kind? = none := by
  simp only [isNeutral, Bool.and_eq_true, Option.isNone_iff_eq_none] at h
  exact h.2

/-- The callbacks that a call installs. -/
def ClientCall.installed? : ClientCall → Option Bool
  | .registerCallbacks enabled => some enabled
  | _ => none

/-- What an accepted call does to the enabled kinds. -/
def EnabledKinds.after (kinds : EnabledKinds) : ClientCall → EnabledKinds
  | .enableKind context kind => kinds.set context kind true
  | .disableKind context kind => kinds.set context kind false
  | _ => kinds

theorem DeviceClient.enabledKinds_answer (c : DeviceClient) (call : ClientCall) :
    (c.answer call).2.enabledKinds = match (c.answer call).1 with
      | .ok _ => c.enabledKinds.after call
      | .error _ => c.enabledKinds := by
  unfold answer
  cases c.refuses c.calls call with
  | some message => rfl
  | none =>
    cases call <;> try rfl
    simp only [accept]
    split <;> rfl

theorem EnabledKinds.after_of_kind? {call : ClientCall} (h : call.kind? = none)
    (kinds : EnabledKinds) : kinds.after call = kinds := by
  cases call <;> first | rfl | cases h

/-- The client refuses no call. -/
def DeviceClient.Willing (c : DeviceClient) : Prop := ∀ n call, c.refuses n call = none

namespace Gateway

/-- All calls so far, in order. -/
def calls (g : Gateway) : List ClientCall := g.journal.filterMap Event.call?

theorem ask_eq (g : Gateway) (call : ClientCall) :
    g.ask call = ((g.client.answer call).1.toOption,
      { client := (g.client.answer call).2,
        journal := g.journal ++ call.events (g.client.answer call).1 }) := by
  unfold ask
  rcases g.client.answer call with ⟨_ | _, client⟩ <;>
    simp [check, report, emit, ClientCall.events, Except.toOption]

theorem filterMap_call?_events (call : ClientCall) (answer : Except TraceError call.Reply) :
    (call.events answer).filterMap Event.call? = [call] := by
  cases answer <;> simp [ClientCall.events, Event.call?]

/-- The gateway gets from one state to another by making these calls. Between them there may be
other events, and what the client has to tell may change. -/
inductive Makes (g : Gateway) : List ClientCall → Gateway → Prop
  | refl : Makes g [] g
  | ask {calls : List ClientCall} {g' : Gateway} (call : ClientCall) :
      Makes g calls g' → Makes g (calls ++ [call]) (g'.ask call).2
  | emit {calls : List ClientCall} {g' : Gateway} (events : List Event) :
      Makes g calls g' → (∀ e ∈ events, e.call? = none) → Makes g calls (g'.emit events)
  | refresh {calls : List ClientCall} {g' : Gateway} (queue : List Completion)
      (timestamp dropped : UInt64) : Makes g calls g' →
      Makes g calls { g' with client := { g'.client with queue, timestamp, dropped } }

namespace Makes

variable {g g' g'' : Gateway} {calls more : List ClientCall}

theorem one (g : Gateway) (call : ClientCall) : Makes g [call] (g.ask call).2 := .ask call .refl

theorem trans (h : Makes g calls g') (h' : Makes g' more g'') : Makes g (calls ++ more) g'' := by
  induction h' with
  | refl => simpa using h
  | ask call _ ih => simpa using ih.ask call
  | emit events _ hevents ih => exact ih.emit events hevents
  | refresh queue timestamp dropped _ ih => exact ih.refresh queue timestamp dropped

theorem calls_eq (h : Makes g calls g') : g'.calls = g.calls ++ calls := by
  induction h with
  | refl => simp
  | @ask calls g' call _ ih =>
    have hnew := filterMap_call?_events call (g'.client.answer call).1
    unfold Gateway.calls at ih ⊢
    rw [ask_eq, List.filterMap_append, ih, hnew, List.append_assoc]
  | emit events _ hevents ih =>
    have hnew : events.filterMap Event.call? = [] := List.filterMap_eq_nil_iff.mpr hevents
    unfold Gateway.calls Gateway.emit at *
    rw [List.filterMap_append, ih, hnew, List.append_nil]
  | refresh _ _ _ _ ih => exact ih

theorem refuses_eq (h : Makes g calls g') : g'.client.refuses = g.client.refuses := by
  induction h with
  | refl => rfl
  | @ask calls g' call _ ih =>
    rw [← ih, ask_eq]
    unfold DeviceClient.answer
    split
    · rfl
    · cases call <;> try rfl
      simp only [DeviceClient.accept]
      split <;> rfl
  | emit _ _ _ ih => exact ih
  | refresh _ _ _ _ ih => exact ih

theorem willing (h : Makes g calls g') (hg : g.client.Willing) : g'.client.Willing := by
  intro n call
  rw [h.refuses_eq]
  exact hg n call

/-- Calls that switch no kind leave the kinds as they are, whether they are refused or not. -/
theorem enabledKinds_eq {calls : List ClientCall} (h : Makes g calls g')
    (hcalls : ∀ call ∈ calls, call.kind? = none) :
    g'.client.enabledKinds = g.client.enabledKinds := by
  induction h with
  | refl => rfl
  | @ask calls g' call _ ih =>
    rw [← ih fun c hc => hcalls c (List.mem_append_left _ hc), ask_eq]
    show (g'.client.answer call).2.enabledKinds = _
    rw [DeviceClient.enabledKinds_answer]
    split
    · exact EnabledKinds.after_of_kind? (hcalls call (by simp)) _
    · rfl
  | emit _ _ _ ih => exact ih hcalls
  | refresh _ _ _ _ ih => exact ih hcalls

/-- What a willing client keeps follows from the calls. -/
theorem client_eq (h : Makes g calls g') (hg : g.client.Willing) :
    g'.client.delivering = calls.foldl (fun d call => call.installed?.getD d) g.client.delivering ∧
      g'.client.enabledKinds = calls.foldl EnabledKinds.after g.client.enabledKinds := by
  induction h with
  | refl => exact ⟨rfl, rfl⟩
  | @ask calls g' call h ih =>
    rw [List.foldl_append, List.foldl_append, ← ih.1, ← ih.2, ask_eq, DeviceClient.answer,
      h.willing hg]
    cases call <;> try exact ⟨rfl, rfl⟩
    simp only [DeviceClient.accept]
    split <;> exact ⟨rfl, rfl⟩
  | emit _ _ _ ih => exact ih
  | refresh _ _ _ _ ih => exact ih

end Makes
end Gateway
end DeviceTrace
