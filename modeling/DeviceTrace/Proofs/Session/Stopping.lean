import DeviceTrace.Proofs.Monitor.Switching
import DeviceTrace.Proofs.Session.Balance

/-!
# What stopping a trace leaves enabled

A session records the kinds that it has enabled, and a client that refuses nothing agrees with this
record for the context of each trace that has not stopped. Stopping a running trace disables what is
recorded. But a trace that is paused or never ran is stopped without a call: its record is dropped,
or not even looked at, and the kinds that were enabled by then stay enabled at the client.
-/

namespace DeviceTrace

namespace Session

variable {s s' s'' : Session}

/-! ## Steps that touch no kind -/

/-- The second session records the kinds that the first one does, and if the client refuses nothing
it has the same kinds enabled. -/
structure Alike (s s' : Session) : Prop where
  recorded : s'.monitor.enabled = s.monitor.enabled
  willing : s.gateway.client.Willing → s'.gateway.client.Willing
  enabled : s.gateway.client.Willing →
    s'.gateway.client.enabledKinds = s.gateway.client.enabledKinds

theorem Alike.of_makes {calls : List ClientCall} (h : s.gateway.Makes calls s'.gateway)
    (hcalls : ∀ call ∈ calls, call.kind? = none)
    (hrecorded : s'.monitor.enabled = s.monitor.enabled) : s.Alike s' :=
  ⟨hrecorded, h.willing, fun _ => h.enabledKinds_eq hcalls⟩

theorem Alike.of_monitor_eq (h : s'.monitor = s.monitor) : s.Alike s' := by
  refine ⟨by rw [h], ?_, ?_⟩ <;> rw [gateway, gateway, h]
  · exact id
  · exact fun _ => rfl

theorem Calm.alike (h : s.Calm s') : s.Alike s' := by
  obtain ⟨calls, hmakes, hneutral⟩ := h.makes
  exact .of_makes hmakes (fun call hcall => ClientCall.kind?_of_isNeutral (hneutral call hcall))
    (by rw [h.same]; rfl)

theorem Counts.alike {active delivering : Nat} (h : s.Counts active delivering s') :
    s.Alike s' := by
  obtain ⟨calls, hmakes, hlifecycle⟩ := h.makes
  exact .of_makes hmakes (fun call hcall => ClientCall.kind?_of_isLifecycle (hlifecycle call hcall))
    h.recorded_eq

/-! ## The record and the client -/

/-- The client refuses nothing, and the kind that ends lists of kinds was never enabled. -/
structure Steady (s : Session) : Prop where
  willing : s.gateway.client.Willing
  valid : ∀ c, s.monitor.enabled.contains c .invalid = false

/-- The client has the kinds of a context enabled that are recorded. -/
def Synced (s : Session) (c : ContextHandle) : Prop :=
  ∀ k, s.monitor.enabled.contains c k = s.gateway.client.enabledKinds.contains c k

/-- A step which the records of these contexts and the client take together. -/
structure InStep (kept : ContextHandle → Prop) (s s' : Session) : Prop where
  steady : s.Steady → s'.Steady
  synced : ∀ c, kept c → s.Steady → s.Synced c → s'.Synced c

namespace InStep

variable {kept : ContextHandle → Prop}

theorem trans (h : InStep kept s s') (h' : InStep kept s' s'') : InStep kept s s'' :=
  ⟨fun hs => h'.steady (h.steady hs),
    fun c hkept hs hc => h'.synced c hkept (h.steady hs) (h.synced c hkept hs hc)⟩

theorem of_alike (h : s.Alike s') : InStep kept s s' := by
  refine ⟨fun hs => ⟨h.willing hs.willing, ?_⟩, fun c _ hs hc k => ?_⟩
  · rw [h.recorded]
    exact hs.valid
  · rw [h.recorded, h.enabled hs.willing]
    exact hc k

theorem of_monitor_eq (h : s'.monitor = s.monitor) : InStep kept s s' :=
  .of_alike (.of_monitor_eq h)

theorem switchKinds (s : Session) (context : ContextHandle) (kinds : List Kind) (enable : Bool) :
    InStep kept s (s.switchKinds context kinds enable).2 := by
  refine ⟨fun hs => ?_, fun c _ hs hc k => ?_⟩
  · obtain ⟨hwilling, hrecorded, -⟩ :=
      Monitor.switchKinds_willing (m := s.monitor) hs.willing context enable kinds
    refine ⟨hwilling, fun c' => (hrecorded c' .invalid).trans ?_⟩
    rw [if_neg fun h => Kind.invalid_not_mem_valid kinds h.2]
    exact hs.valid c'
  · obtain ⟨-, hrecorded, hclient⟩ :=
      Monitor.switchKinds_willing (m := s.monitor) hs.willing context enable kinds
    refine (hrecorded c k).trans (Eq.trans ?_ (hclient c k).symm)
    have hsame : s.monitor.enabled.contains c k = s.monitor.atClient c k := hc k
    by_cases hswitched : c = context ∧ k ∈ Kind.valid kinds
    · -- what is recorded as requested is so at the client as well
      rw [if_pos hswitched]
      by_cases hrequested : s.monitor.enabled.contains c k = enable
      · rw [if_neg fun h => h.2.2 hrequested, ← hsame, hrequested]
      · rw [if_pos ⟨hswitched.1, hswitched.2, hrequested⟩]
    · rw [if_neg hswitched, if_neg fun h => hswitched ⟨h.1, h.2.1⟩]
      exact hsame

theorem of_quiets (h : s.Quiets s') : InStep kept s s' := by
  induction h with
  | refl => exact .of_monitor_eq rfl
  | tail _ hquiet ih =>
    cases hquiet with
    | calm hcalm => exact ih.trans (.of_alike hcalm.alike)
    | switch context kinds enable => exact ih.trans (.switchKinds _ context kinds enable)

theorem forgetKinds (s : Session) {context : ContextHandle} (hkept : ∀ c, kept c → c ≠ context) :
    InStep kept s (s.forgetKinds context) := by
  refine ⟨fun hs => ⟨hs.willing, fun c' => ?_⟩, fun c hc _ hsynced k => ?_⟩
  · show (s.monitor.enabled.clear context).contains c' .invalid = false
    rw [EnabledKinds.contains_clear, hs.valid]
    split <;> rfl
  · show (s.monitor.enabled.clear context).contains c k = _
    rw [EnabledKinds.contains_clear, if_neg (hkept c hc)]
    exact hsynced k

end InStep
end Session

/-- A tracer that moves leaves the records in step with the client, unless it stops: then its own
context is forgotten. -/
theorem TraceMove.inStep {t t' : Tracer} {s s' : Session} (h : TraceMove t s t' s') :
    Session.InStep (fun c => t'.state = .stopped → c ≠ t.context) s s' := by
  cases h with
  | prepare _ | discard _ | install _ _ _ => exact .of_monitor_eq rfl
  | begin source callback _ =>
    let opened := { s with source }.setCallback t.device (some callback)
    have hopened : s.Alike opened := .of_monitor_eq rfl
    exact .trans (.of_alike hopened) (.trans (.of_alike opened.counts_addTrace.alike)
      (.of_alike opened.addTrace.counts_openDelivery.alike))
  | suspend _ =>
    exact .trans (.of_quiets (t.quiets_quieted s))
      (.of_alike (t.quieted s).counts_closeDelivery.alike)
  | resume _ =>
    exact .trans (.of_alike s.counts_openDelivery.alike)
      (.switchKinds s.openDelivery t.context t.pausedKinds true)
  | retire _ =>
    let cleared := (s.forgetKinds t.context).setCallback t.device none
    have hcleared : (s.forgetKinds t.context).Alike cleared := .of_monitor_eq rfl
    exact .trans (.forgetKinds s fun c hc => hc rfl)
      (.trans (.of_alike hcleared) (.of_alike cleared.counts_removeTrace.alike))

namespace Tracer

variable {s : Session}

theorem enabledKinds_retire (t : Tracer) (hs : s.gateway.client.Willing) :
    (t.retire s).2.gateway.client.enabledKinds = s.gateway.client.enabledKinds :=
  ((s.forgetKinds t.context).setCallback t.device none).counts_removeTrace.alike.enabled hs

/-- Suspending a trace disables the recorded kinds of its context. -/
theorem contains_quieted (t : Tracer) (hs : s.Steady) (k : Kind) :
    (t.quieted s).gateway.client.enabledKinds.contains t.context k =
      (s.gateway.client.enabledKinds.contains t.context k &&
        !s.monitor.enabled.contains t.context k) := by
  have hflush := s.calm_flush.alike
  have hstep : Session.InStep (fun _ => True) s s.flush.2 := .of_alike hflush
  have hsteady := hstep.steady hs
  obtain ⟨-, -, hclient⟩ := Monitor.switchKinds_willing (m := s.flush.2.monitor) hsteady.willing
    t.context false (s.flush.2.enabledKinds t.context)
  have hinvalid : .invalid ∉ s.flush.2.enabledKinds t.context := by
    rw [Session.enabledKinds, EnabledKinds.mem_kinds, hsteady.valid]
    exact Bool.false_ne_true
  have hmem : k ∈ Kind.valid (s.flush.2.enabledKinds t.context) ↔
      s.monitor.enabled.contains t.context k = true := by
    rw [Kind.valid_eq_self hinvalid, Session.enabledKinds, EnabledKinds.mem_kinds, hflush.recorded]
  have hbefore : s.flush.2.monitor.atClient t.context k =
      s.gateway.client.enabledKinds.contains t.context k := by
    show s.flush.2.gateway.client.enabledKinds.contains t.context k = _
    rw [hflush.enabled hs.willing]
  refine (hclient t.context k).trans ?_
  simp only [hmem, hbefore, hflush.recorded]
  cases s.monitor.enabled.contains t.context k <;> simp

/-- Stopping a trace disables the recorded kinds of its context if it is running, and none if it is
not. -/
theorem contains_stop (t : Tracer) (hs : s.Steady) (k : Kind) :
    (t.stop s).2.gateway.client.enabledKinds.contains t.context k =
      (s.gateway.client.enabledKinds.contains t.context k &&
        !(decide (t.state = .started) && s.monitor.enabled.contains t.context k)) := by
  unfold stop
  cases hstate : t.state with
  | started =>
    have hstep : Session.InStep (fun _ => True) s (t.quieted s) := .of_quiets (t.quiets_quieted s)
    have hquieted := hstep.steady hs
    have hclosed := (t.quieted s).counts_closeDelivery.alike
    show ((t.suspend s).1.retire (t.suspend s).2).2.gateway.client.enabledKinds.contains _ k = _
    rw [t.suspend_eq, enabledKinds_retire _ (hclosed.willing hquieted.willing),
      hclosed.enabled hquieted.willing, t.contains_quieted hs]
    simp
  | paused =>
    show (t.retire s).2.gateway.client.enabledKinds.contains t.context k = _
    rw [enabledKinds_retire t hs.willing]
    simp
  | uninitialized | initialized | stopped => simp

end Tracer

namespace System

variable {ops : List Operation} {sys sys' : System}

/-- After these operations the record of a context agrees with the client, as long as the context
was not forgotten and no trace of it has stopped. -/
structure Tracked (ops : List Operation) (sys : System) : Prop where
  steady : sys.session.Steady
  synced : ∀ c, .forget c ∉ ops →
    (c ∉ contextsOf ops ∨ ∃ index t, sys.tracer? index = some t ∧ t.context = c ∧
      t.state ≠ .stopped) → sys.session.Synced c

namespace Tracked

theorem mono (h : Tracked ops sys) (op : Operation) : Tracked (ops ++ [op]) sys := by
  refine ⟨h.steady, fun c hforget hc => h.synced c ?_ (hc.imp_left fun hnew => ?_)⟩
  · exact fun hmem => hforget (List.mem_append_left _ hmem)
  · rw [contextsOf, List.filterMap_append, List.map_append] at hnew
    exact fun hmem => hnew (List.mem_append_left _ hmem)

theorem move (h : Tracked ops sys) (happart : Apart Tracer.context (contextsOf ops) sys)
    (hmove : sys.Move sys') : Tracked ops sys' := by
  cases hmove with
  | @trace index t t' s' ht hmove =>
    have hstep := hmove.inStep
    refine ⟨hstep.steady h.steady, fun c hforget hc => ?_⟩
    -- a context that is still covered was so before, and it is not that of a tracer that stops
    have hbefore : c ∉ contextsOf ops ∨ ∃ j u, sys.tracer? j = some u ∧ u.context = c ∧
        u.state ≠ .stopped := by
      refine hc.imp_right ?_
      rintro ⟨j, u, hu, hcontext, hstate⟩
      rw [tracer?_withTracer ht] at hu
      split at hu
      · obtain rfl := Option.some.inj hu
        exact ⟨index, t, ht, hmove.same.context.symm.trans hcontext, hmove.ne_stopped⟩
      · exact ⟨j, u, hu, hcontext, hstate⟩
    refine hstep.synced c (fun hstopped => ?_) h.steady (h.synced c hforget hbefore)
    rintro rfl
    rcases hc with hnew | ⟨j, u, hu, hcontext, hstate⟩
    · exact hnew (happart.mem index t ht)
    · rw [tracer?_withTracer ht] at hu
      split at hu
      · obtain rfl := Option.some.inj hu
        exact hstate hstopped
      · rename_i hne
        exact hne (happart.eq index j t u ht hu hcontext.symm)
  | lapse _ _ =>
    refine ⟨h.steady, fun c hforget hc => h.synced c hforget (hc.imp_right ?_)⟩
    rintro ⟨j, u, hu, hcontext, hstate⟩
    exact ⟨j, u, (tracer?_lapse.mp hu).2, hcontext, hstate⟩
  | quiet hquiet =>
    have hstep : Session.InStep (fun _ => True) _ _ := .of_quiets (.single hquiet)
    exact ⟨hstep.steady h.steady,
      fun c hforget hc => hstep.synced c trivial h.steady (h.synced c hforget hc)⟩
  | release => exact ⟨h.steady, h.synced⟩

theorem register (h : Tracked ops sys) (device : DeviceId) (globalId : Int32)
    {context : ContextHandle} (hnew : context ∉ contextsOf ops) :
    Tracked (ops ++ [.register device globalId context])
      (sys.register device globalId context) := by
  have hmono := h.mono (.register device globalId context)
  refine ⟨⟨h.steady.willing, h.steady.valid⟩, fun c hforget hc => ?_⟩
  rcases hc with hc | ⟨j, u, hu, rfl, hstate⟩
  · exact hmono.synced c hforget (.inl hc)
  · rcases tracer?_register.mp hu with hu | ⟨-, rfl⟩
    · exact hmono.synced _ hforget (.inr ⟨j, u, hu, rfl, hstate⟩)
    · -- nobody has stopped a trace of a context that was not registered before
      exact h.synced context (fun hmem => hforget (List.mem_append_left _ hmem)) (.inl hnew)

theorem forget (h : Tracked ops sys) (context : ContextHandle) :
    Tracked (ops ++ [.forget context])
      { sys with session := sys.session.forgetKinds context } := by
  have hstep : Session.InStep (· ≠ context) _ _ := .forgetKinds sys.session fun _ hne => hne
  refine ⟨hstep.steady h.steady, fun c hforget hc => ?_⟩
  have hne : c ≠ context := by
    rintro rfl
    exact hforget (List.mem_append_right _ (List.mem_singleton.mpr rfl))
  exact hstep.synced c hne h.steady ((h.mono (.forget context)).synced c hforget hc)

end Tracked

theorem tracked_run (hnone : sys.tracers = []) (hsteady : sys.session.Steady)
    (hsynced : ∀ c, sys.session.Synced c) (ops : List Operation) (honce : (contextsOf ops).Nodup) :
    Tracked ops (sys.run ops) := by
  induction ops using List.reverseRecOn with
  | nil => exact ⟨hsteady, fun c _ _ => hsynced c⟩
  | append_singleton ops op ih =>
    have hbefore : (contextsOf ops).Nodup := by
      rw [contextsOf, List.filterMap_append, List.map_append] at honce
      exact (List.nodup_append.mp honce).1
    have htracked := ih hbefore
    have happart := apart_run (fun _ _ hsame => hsame.context) hnone ops hbefore
    rw [run_concat]
    rcases step_cases (sys.run ops) op with
      h | ⟨device, globalId, context, rfl, h⟩ | ⟨context, rfl, h⟩
    · refine (h.keeps (P := fun a => Tracked ops a ∧ Apart Tracer.context (contextsOf ops) a)
        (fun a b ha hmove => ⟨ha.1.move ha.2 hmove, ?_⟩) ⟨htracked, happart⟩).1.mono op
      exact ha.2.move (fun _ _ hsame => hsame.context) hmove
    · rw [h]
      refine htracked.register device globalId fun hmem => ?_
      rw [contextsOf, List.filterMap_append, List.map_append] at honce
      exact (List.nodup_append.mp honce).2.2 _ hmem _ (List.mem_singleton.mpr rfl) rfl
    · rw [h]
      exact htracked.forget context

/-- As long as the client refuses nothing and no two tracers share a context, whatever state a
tracer is in: stopping it leaves those kinds of its context enabled at the client that were so
before, but not the recorded ones if its trace is running. So a trace that is running leaves no kind
enabled, unless the owner had its context forgotten. -/
theorem enabledKinds_after_stop {config : SessionConfig} {client : DeviceClient} {session : Session}
    (hbuild : Session.build config client = .ok session) (hwilling : client.Willing)
    (hempty : client.enabledKinds = .empty) (ops : List Operation)
    (honce : (contextsOf ops).Nodup) {index : Nat} {t : Tracer}
    (ht : (({ session } : System).run ops).tracer? index = some t) :
    let sys := ({ session } : System).run ops
    let stopped := sys.step (.stop index)
    (∀ k, stopped.session.gateway.client.enabledKinds.contains t.context k =
      (sys.session.gateway.client.enabledKinds.contains t.context k &&
        !(decide (t.state = .started) && sys.session.monitor.enabled.contains t.context k))) ∧
    (t.state = .started → .forget t.context ∉ ops →
      ∀ k, stopped.session.gateway.client.enabledKinds.contains t.context k = false) := by
  intro sys stopped
  have htracked : Tracked ops sys := by
    refine tracked_run rfl ?_ ?_ ops honce <;> rw [build_eq hbuild]
    · exact ⟨hwilling, fun c => rfl⟩
    · intro c k
      show false = client.enabledKinds.contains c k
      rw [hempty, EnabledKinds.contains_empty]
  have hsession : stopped.session = (t.stop sys.session).2 := by
    show (sys.command index fun t s => (true, t.stop s)).2.session = _
    unfold command onTracer?
    rw [ht]
    rfl
  have hstop (k : Kind) := t.contains_stop htracked.steady k
  rw [← hsession] at hstop
  refine ⟨hstop, fun hstarted hforget k => ?_⟩
  have hlive : t.state ≠ .stopped := by
    rw [hstarted]
    decide
  have hsynced := htracked.synced t.context hforget (.inr ⟨index, t, ht, rfl, hlive⟩)
  rw [hstop, hstarted, hsynced k]
  simp

/-- A kind that was enabled before the trace started, and one that was enabled while it was paused,
are still enabled at the client when the trace is stopped then. -/
theorem stop_leaves_enabled :
    let session : Session := { config := {}, monitor := { gateway := { client := .willing } } }
    let unstarted : List Operation := [.register 0 0 ⟨1⟩, .switchSet 0 .kernelInvocation true]
    let paused : List Operation := [.register 0 0 ⟨1⟩, .start 0 .session 0, .pause 0 true,
      .switchSet 0 .kernelInvocation true]
    Session.build {} .willing = .ok session ∧ ∀ ops ∈ [unstarted, paused],
      (contextsOf ops).Nodup ∧ (({ session } : System).run
        (ops ++ [.stop 0])).session.gateway.client.enabledKinds.contains ⟨1⟩ .kernel = true := by
  refine ⟨rfl, ?_⟩
  decide +kernel

theorem enabledKinds_after_stop_running :
    ∃ session : Session, Session.build {} .willing = .ok session ∧
      let sys := ({ session } : System).run
        [.register 0 0 ⟨1⟩, .switchSet 0 .kernelInvocation true, .start 0 .session 0]
      ∀ k, (sys.step (.stop 0)).session.gateway.client.enabledKinds.contains ⟨1⟩ k = false := by
  obtain ⟨session, hbuild⟩ : ∃ session, Session.build {} .willing = .ok session := ⟨_, rfl⟩
  refine ⟨session, hbuild, ?_⟩
  have hstarted : (({ session } : System).run [.register 0 0 ⟨1⟩,
      .switchSet 0 .kernelInvocation true, .start 0 .session 0]).tracer? 0 =
      some { device := 0, globalId := 0, context := ⟨1⟩, state := .started } := by
    rw [build_eq hbuild]
    decide +kernel
  obtain ⟨-, hnone⟩ :=
    enabledKinds_after_stop hbuild (fun _ _ => rfl) rfl _ (by decide) hstarted
  exact hnone rfl (by simp)

end System
end DeviceTrace
