import DeviceTrace.Proofs.Client.Calls
import DeviceTrace.Proofs.Session.Runs
import Mathlib.Logic.Relation

/-!
# Quiet steps of a session

Most of what a session does leaves its devices and its counts alone. It makes neutral calls or it
switches kinds, and all that can change is the gateway and the record of the kinds. Counting traces
is the rest: it makes calls of the lifecycle, and leaves the kinds alone.
-/

namespace DeviceTrace
namespace Session

/-! ## Neutral calls -/

/-- The second session is the first one after some neutral calls and other events. -/
structure Calm (s s' : Session) : Prop where
  makes : ∃ calls, Gateway.Makes s.gateway calls s'.gateway ∧ ∀ call ∈ calls, call.isNeutral
  same : s' = s.withGateway s'.gateway

namespace Calm

variable {s s' s'' : Session}

theorem refl (s : Session) : s.Calm s := ⟨⟨[], .refl, by simp⟩, rfl⟩

theorem trans (h : s.Calm s') (h' : s'.Calm s'') : s.Calm s'' := by
  obtain ⟨calls, hmakes, hneutral⟩ := h.makes
  obtain ⟨more, hmakes', hneutral'⟩ := h'.makes
  refine ⟨⟨calls ++ more, hmakes.trans hmakes', ?_⟩, ?_⟩
  · intro call hcall
    exact (List.mem_append.mp hcall).elim (hneutral call) (hneutral' call)
  · rw [h'.same, h.same]
    rfl

theorem ask (s : Session) {call : ClientCall} (h : call.isNeutral) : s.Calm (s.ask call).2 :=
  ⟨⟨[call], .one _ call, by simpa using h⟩, rfl⟩

theorem emit (s : Session) {events : List Event} (h : ∀ e ∈ events, e.call? = none) :
    s.Calm (s.emit events) :=
  ⟨⟨[], .emit events .refl h, by simp⟩, rfl⟩

theorem refresh (s : Session) (queue : List Completion) (timestamp dropped : UInt64) :
    s.Calm (s.refresh queue timestamp dropped) :=
  ⟨⟨[], .refresh queue timestamp dropped .refl, by simp⟩, rfl⟩

end Calm

theorem call?_droppedEvents (s : Session) (dropped : Option UInt64) :
    ∀ e ∈ s.droppedEvents dropped, e.call? = none := by
  intro e he
  obtain ⟨n, -, rfl⟩ := List.mem_map.mp he
  rfl

theorem call?_recordEvents (s : Session) (bytes : Bytes) :
    ∀ e ∈ s.recordEvents bytes, e.call? = none := by
  intro e he
  rw [recordEvents_def] at he
  rcases List.mem_append.mp he with he | he
  · obtain ⟨span, -, hevent⟩ := List.mem_filterMap.mp he
    unfold spanEvent? at hevent
    split at hevent
    · obtain ⟨callback, -, rfl⟩ := Option.map_eq_some_iff.mp hevent
      rfl
    · cases hevent
      rfl
  · obtain ⟨error, -, rfl⟩ := List.mem_map.mp he
    rfl

theorem calm_takeBack (s : Session) (c : Completion) : s.Calm (s.takeBack c) := by
  refine (Calm.ask s ?_).trans (Calm.emit _ ?_)
  · rfl
  · intro e he
    exact (List.mem_append.mp he).elim (call?_droppedEvents _ _ e) (call?_recordEvents _ _ e)

theorem calm_takeBackThroughClient (s : Session) (c : Completion) :
    s.Calm (s.takeBackThroughClient c) := by
  unfold takeBackThroughClient
  split
  · exact s.calm_takeBack c
  · exact .refl s

theorem calm_flush (s : Session) : s.Calm s.flush.2 := by
  have hfold (waiting : List Completion) (s : Session) :
      s.Calm (waiting.foldl takeBackThroughClient s) := by
    induction waiting generalizing s with
    | nil => exact .refl s
    | cons c waiting ih => exact (s.calm_takeBackThroughClient c).trans (ih _)
  have hask : s.Calm (s.ask (.flushAll s.config.forcedFlush)).2 := Calm.ask s rfl
  unfold flush
  split
  · rename_i waiting s' hreply
    rw [hreply] at hask
    exact hask.trans (hfold waiting s')
  · rename_i s' hreply
    rw [hreply] at hask
    exact hask

theorem calm_supply (s : Session) : s.Calm s.supply.2 := by
  unfold supply
  split
  · rcases hbuffer : TraceBuffer.allocate s.config.layout with e | buffer
    · exact Calm.emit s (by simp [Event.call?])
    · exact .refl s
  · exact Calm.emit s (by simp [Event.call?])

theorem calm_supplyThroughClient (s : Session) : s.Calm s.supplyThroughClient.2 := by
  unfold supplyThroughClient
  split
  · exact s.calm_supply
  · exact .refl s

theorem calm_noteModule (s : Session) (event : ModuleEvent) (id : UInt64) (image : Bytes) :
    s.Calm (s.noteModule event id image) := by
  unfold noteModule
  split
  · exact Calm.emit s (by simp [Event.call?])
  · exact .refl s

theorem makes_compare (g : Gateway) (expected : CorrelationId) (popped : UInt64) :
    g.Makes [] (CorrelationStack.compare expected popped g) := by
  unfold CorrelationStack.compare
  split
  · exact .refl
  · exact .emit _ .refl (by simp [Event.call?])

theorem makes_onCall (g : Gateway) (stack : CorrelationStack) (filter : CallFilter) (site : ApiSite)
    (function : ApiFunction) (id : Option CorrelationId) :
    ∃ calls, g.Makes calls (stack.onCall filter site function id g).2 ∧
      ∀ call ∈ calls, call.isNeutral := by
  unfold CorrelationStack.onCall
  cases id with
  | none => exact ⟨[], .refl, by simp⟩
  | some id =>
    by_cases hallowed : filter.allows function
    · simp only [hallowed, if_true]
      cases site with
      | enter => exact ⟨_, .one g (.pushCorrelation id), by simp; rfl⟩
      | exit =>
        unfold CorrelationStack.pop
        cases stack.pushed with
        | nil => exact ⟨[], .refl, by simp⟩
        | cons _ pushed =>
          have hpop := Gateway.Makes.one g .popCorrelation
          refine ⟨[.popCorrelation], ?_, by simp; rfl⟩
          dsimp only
          split
          · simpa using hpop.trans (makes_compare _ id _)
          · exact hpop
    · simp only [hallowed]
      exact ⟨[], .refl, by simp⟩

theorem calm_onCall (s : Session) (stack : CorrelationStack) (site : ApiSite)
    (function : ApiFunction) (id : Option CorrelationId) :
    s.Calm (s.onCall stack site function id).2 :=
  ⟨makes_onCall s.gateway stack s.config.filter site function id, rfl⟩

/-! ## Switching kinds -/

theorem makes_switchKind (m : Monitor) (context : ContextHandle) (enable : Bool) (kind : Kind) :
    ∃ calls, m.gateway.Makes calls (m.switchKind context enable kind).2.gateway ∧
      ∀ call ∈ calls, call.kind?.isSome := by
  unfold Monitor.switchKind
  split
  · exact ⟨[], .refl, by simp⟩
  · refine ⟨[Monitor.requestCall enable context kind], ?_, ?_⟩
    · have hone := Gateway.Makes.one m.gateway (Monitor.requestCall enable context kind)
      dsimp only [Gateway.attempt]
      split <;> exact hone
    · cases enable <;> simp [Monitor.requestCall, ClientCall.kind?]

theorem makes_switchEach (m : Monitor) (context : ContextHandle) (enable : Bool) (kinds : List Kind)
    (tally : Tally) :
    ∃ calls, m.gateway.Makes calls (m.switchEach context enable kinds tally).2.gateway ∧
      ∀ call ∈ calls, call.kind?.isSome := by
  induction kinds generalizing m tally with
  | nil => exact ⟨[], .refl, by simp⟩
  | cons kind kinds ih =>
    obtain ⟨first, hfirst, hkind⟩ := makes_switchKind m context enable kind
    obtain ⟨more, hmore, hkinds⟩ := ih (m.switchKind context enable kind).2
      (tally.count (m.switchKind context enable kind).1)
    refine ⟨first ++ more, hfirst.trans hmore, ?_⟩
    intro call hcall
    exact (List.mem_append.mp hcall).elim (hkind call) (hkinds call)

/-- What a session does apart from its traces: neutral calls, or switching kinds of a context. -/
inductive Quiet (s : Session) : Session → Prop
  | calm {s' : Session} : s.Calm s' → Quiet s s'
  | switch (context : ContextHandle) (kinds : List Kind) (enable : Bool) :
      Quiet s (s.switchKinds context kinds enable).2

/-- Quiet steps leave everything but the gateway and the recorded kinds as it was, and none of
their calls is one of the lifecycle. -/
theorem Quiet.frame {s s' : Session} (h : s.Quiet s') :
    (∃ calls, Gateway.Makes s.gateway calls s'.gateway ∧ ∀ call ∈ calls, call.isLifecycle = false) ∧
      s' = { s with monitor := s'.monitor } := by
  cases h with
  | calm h =>
    obtain ⟨calls, hmakes, hneutral⟩ := h.makes
    refine ⟨⟨calls, hmakes, fun call hcall => ?_⟩, ?_⟩
    · have := hneutral call hcall
      simp only [ClientCall.isNeutral, Bool.and_eq_true, Bool.not_eq_true'] at this
      exact this.1
    · rw [h.same]
      rfl
  | switch context kinds enable =>
    obtain ⟨calls, hmakes, hkinds⟩ :=
      makes_switchEach s.monitor context enable (Kind.valid kinds) {}
    refine ⟨⟨calls, hmakes, fun call hcall => ?_⟩, rfl⟩
    have := hkinds call hcall
    cases call <;> simp_all [ClientCall.kind?, ClientCall.isLifecycle]

/-- Quiet steps one after the other. -/
abbrev Quiets : Session → Session → Prop := Relation.ReflTransGen Quiet

theorem Quiets.frame {s s' : Session} (h : s.Quiets s') :
    (∃ calls, Gateway.Makes s.gateway calls s'.gateway ∧ ∀ call ∈ calls, call.isLifecycle = false) ∧
      s' = { s with monitor := s'.monitor } := by
  induction h with
  | refl => exact ⟨⟨[], .refl, by simp⟩, rfl⟩
  | tail _ hquiet ih =>
    obtain ⟨⟨calls, hmakes, hcalls⟩, hsame⟩ := ih
    obtain ⟨⟨more, hmore, hcalls'⟩, hsame'⟩ := hquiet.frame
    refine ⟨⟨calls ++ more, hmakes.trans hmore, fun call hcall => ?_⟩, ?_⟩
    · exact (List.mem_append.mp hcall).elim (hcalls call) (hcalls' call)
    · rw [hsame', hsame]

theorem quiets_switchSets (s : Session) (context : ContextHandle) (enable : Bool)
    (sets : List KindSet) (progress : NativeProgress) :
    s.Quiets { s with monitor := (s.monitor.switchSets context enable sets progress).2 } := by
  induction sets generalizing s progress with
  | nil => exact .refl
  | cons set sets ih =>
    exact .head (.switch context set.kinds enable)
      (ih (s.switchKinds context set.kinds enable).2
        (progress.add (s.switchKinds context set.kinds enable).1))

theorem quiets_switchCategories (s : Session) (context : ContextHandle) (flags : UInt32)
    (enable : Bool) : s.Quiets (s.switchCategories context flags enable).2 := by
  unfold switchCategories Monitor.switchCategories
  cases chosenCategories? flags with
  | none => exact .refl
  | some sets =>
    exact (s.quiets_switchSets context enable sets {}).tail
      (.switch context KindSet.externalCorrelation.kinds true)

/-! ## Counting traces -/

/-- The second session comes from the first by calls of the lifecycle, and has counted this many
active traces and traces that want records. -/
structure Counts (s : Session) (active delivering : Nat) (s' : Session) : Prop where
  makes : ∃ calls, s.gateway.Makes calls s'.gateway ∧ ∀ call ∈ calls, call.isLifecycle
  same : s' = { s.withGateway s'.gateway with
    activeTraces := active, deliveringTraces := delivering }

theorem counts_addTrace (s : Session) :
    s.Counts (s.activeTraces + 1) s.deliveringTraces s.addTrace := by
  unfold addTrace
  split
  · exact ⟨⟨[.subscribe], .one _ _, by decide⟩, rfl⟩
  · exact ⟨⟨[], .refl, by simp⟩, rfl⟩

theorem counts_removeTrace (s : Session) :
    s.Counts (s.activeTraces - 1) s.deliveringTraces s.removeTrace := by
  unfold removeTrace
  split
  · exact ⟨⟨[.unsubscribe, .finalize], .trans (.one _ .unsubscribe) (.one _ .finalize), by decide⟩,
      rfl⟩
  · exact ⟨⟨[], .refl, by simp⟩, rfl⟩

theorem counts_openDelivery (s : Session) :
    s.Counts s.activeTraces (s.deliveringTraces + 1) s.openDelivery :=
  ⟨⟨[.registerCallbacks true], .one _ _, by decide⟩, rfl⟩

theorem counts_closeDelivery (s : Session) :
    s.Counts s.activeTraces (s.deliveringTraces - 1) s.closeDelivery := by
  unfold closeDelivery
  split
  · exact ⟨⟨[.registerCallbacks false], .one _ _, by decide⟩, rfl⟩
  · exact ⟨⟨[], .refl, by simp⟩, rfl⟩

namespace Counts

variable {s s' : Session} {active delivering : Nat} (h : s.Counts active delivering s')

include h

theorem activeTraces_eq : s'.activeTraces = active := by rw [h.same]

theorem deliveringTraces_eq : s'.deliveringTraces = delivering := by rw [h.same]

theorem devices_eq : s'.devices = s.devices := by
  rw [h.same]
  rfl

theorem recorded_eq : s'.monitor.enabled = s.monitor.enabled := by
  rw [h.same]
  rfl

end Counts

end Session
end DeviceTrace
