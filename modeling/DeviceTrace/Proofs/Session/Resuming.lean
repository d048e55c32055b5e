import DeviceTrace.Proofs.Session.Recording

/-!
# What a resumed trace has enabled

Pausing a trace saves the kinds that are enabled in its context and disables them, and resuming it
enables the saved ones. Either may fail for some kinds, and in between kinds may be enabled or
disabled at will. When the trace has resumed, the kinds are enabled that were so before the pause or
just before the resumption, except the saved ones that would have to be enabled again and are
refused.
-/

namespace DeviceTrace

theorem EnabledKinds.nodup_kinds (e : EnabledKinds) (context : ContextHandle) :
    (e.kinds context).Nodup := Kind.nodup_all.filter _

namespace Session

theorem journal_tell (s : Session) (call : ClientCall) :
    (s.tell call).gateway.journal =
      s.gateway.journal ++ call.events (s.gateway.client.answer call).1 := by
  show (s.gateway.ask call).2.journal = _
  rw [Gateway.ask_eq]

theorem recorded_flush (s : Session) : s.flush.2.monitor.enabled = s.monitor.enabled := by
  rw [s.calm_flush.same]
  rfl

end Session

theorem call_eq_of_refused {call other : ClientCall} {answer : Except TraceError call.Reply}
    (h : Refused (call.events answer) other) : other = call := by
  obtain ⟨error, hmem⟩ := h
  cases answer <;> simp_all [ClientCall.events]

namespace Tracer

/-- Resuming a trace leaves the kinds recorded that were so before, and adds the saved ones that the
client does not refuse to enable. -/
theorem resume_recorded (t : Tracer) (s : Session) (hnodup : t.pausedKinds.Nodup)
    (hvalid : .invalid ∉ t.pausedKinds) :
    ∃ events, (t.resume s).2.gateway.journal = s.gateway.journal ++ events ∧
      ∀ kind, (t.resume s).2.monitor.enabled.contains t.context kind = true ↔
        s.monitor.enabled.contains t.context kind = true ∨
          kind ∈ t.pausedKinds ∧ ¬ Refused events (.enableKind t.context kind) := by
  have hopened := s.counts_openDelivery.recorded_eq
  have hresume : (t.resume s).2.monitor =
      (s.openDelivery.monitor.switchEach t.context true t.pausedKinds {}).2 := by
    show (s.openDelivery.monitor.switchEach t.context true (Kind.valid t.pausedKinds) {}).2 = _
    rw [Kind.valid_eq_self hvalid]
  obtain ⟨events, hjournal, -, hkept, hswitched⟩ :=
    s.openDelivery.monitor.switchEach_recorded t.context true hnodup {}
  let registered := (ClientCall.registerCallbacks true).events
    (s.gateway.client.answer (.registerCallbacks true)).1
  refine ⟨registered ++ events, ?journal, fun kind => ?recorded⟩
  case journal =>
    show (t.resume s).2.monitor.gateway.journal = _
    rw [hresume, hjournal, ← List.append_assoc]
    exact congrArg (· ++ events)
      (Session.journal_tell { s with deliveringTraces := s.deliveringTraces + 1 } _)
  case recorded =>
    have hrefused : Refused (registered ++ events) (.enableKind t.context kind) ↔
        Refused events (.enableKind t.context kind) := by
      rw [refused_append, or_iff_right]
      intro h
      cases call_eq_of_refused h
    rw [hresume, hrefused]
    have hbefore : s.openDelivery.monitor.enabled.contains t.context kind =
        s.monitor.enabled.contains t.context kind := by rw [hopened]
    by_cases henabled : kind ∈ t.pausedKinds ∧ ¬ Refused events (.enableKind t.context kind)
    · exact iff_of_true (hswitched kind henabled.1 henabled.2) (.inr henabled)
    · rw [or_iff_left henabled, hkept kind (by rwa [not_and_or, not_not] at henabled), hbefore]

/-- Suspending a trace adds no kind to those recorded. -/
theorem contains_of_suspend (t : Tracer) (s : Session) {kind : Kind}
    (h : (t.suspend s).2.monitor.enabled.contains t.context kind = true) :
    s.monitor.enabled.contains t.context kind = true := by
  let kinds := Kind.valid (s.flush.2.enabledKinds t.context)
  have hnodup : kinds.Nodup :=
    (EnabledKinds.nodup_kinds _ t.context).sublist (List.takeWhile_sublist _)
  obtain ⟨events, -, -, hkept, hswitched⟩ :=
    s.flush.2.monitor.switchEach_recorded t.context false hnodup {}
  have hquieted : (s.flush.2.monitor.switchEach t.context false kinds {}).2.enabled.contains
      t.context kind = true := by
    rw [t.suspend_eq, (t.quieted s).counts_closeDelivery.recorded_eq] at h
    exact h
  by_cases hdisabled : kind ∈ kinds ∧ ¬ Refused events (.disableKind t.context kind)
  · rw [hswitched kind hdisabled.1 hdisabled.2] at hquieted
    cases hquieted
  · rwa [hkept kind (by rwa [not_and_or, not_not] at hdisabled), s.recorded_flush] at hquieted

/-- What is saved are the kinds recorded before the suspension, also those that are then refused to
be disabled. -/
theorem pausedKinds_suspend (t : Tracer) (s : Session) :
    (t.suspend s).1.pausedKinds = s.enabledKinds t.context := by
  show s.flush.2.enabledKinds t.context = s.enabledKinds t.context
  unfold Session.enabledKinds
  rw [s.recorded_flush]

end Tracer

/-- Whether an operation enables or disables kinds for the holder of this tracer. -/
def Operation.switches (index : Nat) : Operation → Bool
  | .switchSet i .. | .switchCategories i .. => i = index
  | _ => false

theorem Operation.of_switches {index : Nat} {op : Operation} (h : op.switches index) :
    op.subject? = none ∧ op.forgets = false := by
  cases op <;> first | exact ⟨rfl, rfl⟩ | cases h

namespace System

/-- The kind is recorded as enabled in the context. -/
def Enabled (sys : System) (context : ContextHandle) (kind : Kind) : Prop :=
  kind ∈ sys.session.enabledKinds context

instance (sys : System) (context : ContextHandle) (kind : Kind) :
    Decidable (sys.Enabled context kind) :=
  inferInstanceAs (Decidable (kind ∈ sys.session.enabledKinds context))

theorem enabled_iff {sys : System} {context : ContextHandle} {kind : Kind} :
    sys.Enabled context kind ↔ sys.session.monitor.enabled.contains context kind = true :=
  EnabledKinds.mem_kinds ..

theorem contextOf?_of_subject? {sys : System} {index : Nat} {t : Tracer}
    (ht : sys.tracer? index = some t) {op : Operation} (hop : op.subject? = some index) :
    sys.contextOf? op = some t.context := by
  cases op <;> simp_all [Operation.subject?, contextOf?]

theorem step_suspend {sys : System} {index : Nat} {t : Tracer} (ht : sys.tracer? index = some t)
    (hstarted : t.state = .started) : sys.step (.pause index true) =
      sys.withTracer index (t.suspend sys.session).1 (t.suspend sys.session).2 := by
  have hpause : t.pause sys.session true = (true, t.suspend sys.session) := by
    simp [Tracer.pause, hstarted]
  show (sys.command index fun t s => t.pause s true).2 = _
  rw [command_some ht, hpause]

/-- Resuming a paused trace, be it by starting it anew. -/
theorem perform_resume {sys : System} {index : Nat} {t : Tracer} (ht : sys.tracer? index = some t)
    (hpaused : t.state = .paused) {op : Operation}
    (hop : op = .pause index false ∨ ∃ source callback, op = .start index source callback) :
    ∃ s, s.monitor = sys.session.monitor ∧
      sys.perform op = (some true, sys.withTracer index (t.resume s).1 (t.resume s).2) := by
  rcases hop with rfl | ⟨source, callback, rfl⟩
  · have hpause : t.pause sys.session false = (true, t.resume sys.session) := by
      simp [Tracer.pause, hpaused]
    refine ⟨sys.session, rfl, ?_⟩
    show (sys.command index fun t s => t.pause s false) = _
    rw [command_some ht, hpause]
  · refine ⟨{ sys.session with source }.setCallback t.device (some callback), rfl, ?_⟩
    show sys.command index _ = _
    rw [command_some ht, Tracer.start_eq, hpaused]

/-- While a trace is paused, whatever is done in other contexts, and whatever kinds are enabled or
disabled for its holder, leaves its tracer as it is. -/
theorem tracer?_while_paused {sys : System} {index : Nat} {t : Tracer}
    (ht : sys.tracer? index = some t) (ops : List Operation)
    (hops : ∀ entry ∈ sys.trail ops,
      entry.2.switches index ∨ entry.1.contextOf? entry.2 ≠ some t.context) :
    (sys.run ops).tracer? index = some t := by
  refine run_keeps_along (P := fun a => a.tracer? index = some t)
    (Q := fun a op => op.switches index ∨ a.contextOf? op ≠ some t.context)
    (fun a op ha hop => tracer?_step ha fun hsubject => ?_) ht ops hops
  rcases hop with hswitches | hother
  · rw [(Operation.of_switches hswitches).1] at hsubject
    cases hsubject
  · exact hother (contextOf?_of_subject? ha hsubject)

theorem valid_of_build {config : SessionConfig} {client : DeviceClient} {session : Session}
    (h : Session.build config client = .ok session) : session.monitor.Valid := by
  rw [build_eq h]
  exact fun _ => rfl

/-- With any client, whatever calls it refuses: a running trace is paused, then kinds are enabled or
disabled for its holder and anything is done in other contexts, and then the trace is resumed. It
has the kinds enabled that were so when it was paused or just before it was resumed, except those of
the former that were not enabled any more and that the client refuses to enable again. If it refuses
none, all of them are enabled, and if nothing was done in the context in between, they are those of
before the pause, whatever the client refused to disable then. If the record of the context agrees
with the client before the pause, it does so after the resumption. -/
theorem enabled_after_resume {config : SessionConfig} {client : DeviceClient} {session : Session}
    (hbuild : Session.build config client = .ok session) (ops : List Operation) {index : Nat}
    {t : Tracer} (ht : (({ session } : System).run ops).tracer? index = some t)
    (hstarted : t.state = .started) (between : List Operation)
    (hbetween : ∀ entry ∈ ((({ session } : System).run ops).step (.pause index true)).trail between,
      entry.2.switches index ∨ entry.1.contextOf? entry.2 ≠ some t.context)
    {resume : Operation}
    (hresume : resume = .pause index false ∨
      ∃ source callback, resume = .start index source callback) :
    let started := ({ session } : System).run ops
    let paused := started.step (.pause index true)
    let waiting := paused.run between
    let resumed := waiting.step resume
    (waiting.perform resume).1 = some true ∧
      ∃ events, resumed.session.gateway.journal = waiting.session.gateway.journal ++ events ∧
        (∀ k, resumed.Enabled t.context k ↔
          (waiting.Enabled t.context k ∨ started.Enabled t.context k) ∧
            ¬ (started.Enabled t.context k ∧ ¬ waiting.Enabled t.context k ∧
              Refused events (.enableKind t.context k))) ∧
        ((∀ k, ¬ Refused events (.enableKind t.context k)) → ∀ k, resumed.Enabled t.context k ↔
          waiting.Enabled t.context k ∨ started.Enabled t.context k) ∧
        ((∀ entry ∈ paused.trail between, entry.1.contextOf? entry.2 ≠ some t.context) →
          (∀ k, ¬ Refused events (.enableKind t.context k)) →
            ∀ k, resumed.Enabled t.context k ↔ started.Enabled t.context k) ∧
        ((∀ k, started.Enabled t.context k ↔
            started.session.gateway.client.enabledKinds.contains t.context k = true) →
          ∀ k, resumed.Enabled t.context k ↔
            resumed.session.gateway.client.enabledKinds.contains t.context k = true) := by
  intro started paused waiting resumed
  let t' := (t.suspend started.session).1
  have hpaused : paused = started.withTracer index t' (t.suspend started.session).2 :=
    step_suspend ht hstarted
  have ht' : waiting.tracer? index = some t' := by
    refine tracer?_while_paused ?_ between hbetween
    show paused.tracer? index = some t'
    rw [hpaused, tracer?_withTracer ht, if_pos rfl]
  obtain ⟨s, hs, hperform⟩ := perform_resume ht' rfl hresume
  have hresumed : resumed.session = (t'.resume s).2 := congrArg (·.2.session) hperform
  have hsaved (k : Kind) : k ∈ t'.pausedKinds ↔ started.Enabled t.context k := by
    rw [t.pausedKinds_suspend]
    rfl
  have hvalid : .invalid ∉ t'.pausedKinds := by
    rw [hsaved, enabled_iff, valid_run (valid_of_build hbuild) ops]
    exact Bool.false_ne_true
  obtain ⟨events, hjournal, hrecorded⟩ :=
    t'.resume_recorded s (EnabledKinds.nodup_kinds _ _) hvalid
  have hunion (k : Kind) : resumed.Enabled t.context k ↔ waiting.Enabled t.context k ∨
      started.Enabled t.context k ∧ ¬ Refused events (.enableKind t.context k) := by
    rw [← hsaved, enabled_iff, enabled_iff, ← hs, hresumed]
    exact hrecorded k
  refine ⟨congrArg Prod.fst hperform, events, ?journal, fun k => ?refused, fun hnone k => ?union,
    fun hidle hnone k => ?restored, fun hagrees k => ?agrees⟩
  case journal =>
    rw [hresumed, hjournal]
    exact congrArg (·.gateway.journal ++ events) hs
  case refused =>
    rw [hunion]
    tauto
  case union =>
    rw [hunion, and_iff_left (hnone k)]
  case restored =>
    rw [hunion, and_iff_left (hnone k), or_iff_right_iff_imp]
    intro hwaiting
    rw [enabled_iff, contains_run between hidle, hpaused] at hwaiting
    exact enabled_iff.mpr (t.contains_of_suspend started.session hwaiting)
  case agrees =>
    have hbefore : started.session.monitor.Agrees t.context :=
      fun k => Bool.eq_iff_iff.mpr (enabled_iff.symm.trans (hagrees k))
    have hpausedAgrees : paused.session.monitor.Agrees t.context :=
      (started.monitor_step (.pause index true)).agrees (fun h => by cases h) hbefore
    have hwaitingAgrees : waiting.session.monitor.Agrees t.context := by
      refine agrees_run hpausedAgrees between fun entry hmem hforgets => ?_
      rcases hbetween entry hmem with hswitches | hother
      · rw [(Operation.of_switches hswitches).2] at hforgets
        cases hforgets
      · exact hother
    have hresumedAgrees : resumed.session.monitor.Agrees t.context := by
      refine (waiting.monitor_step resume).agrees (fun hforgets => ?_) hwaitingAgrees
      rcases hresume with rfl | ⟨_, _, rfl⟩ <;> cases hforgets
    rw [enabled_iff, hresumedAgrees k]
    rfl

/-- The client refuses to disable one kind at the pause, and to enable another again at the
resumption. In between the holder enables a third one, and the trace of another device is stopped.
-/
theorem enabled_after_resume_refused :
    let client : DeviceClient := { refuses := fun calls call =>
      if call = ClientCall.disableKind ⟨1⟩ .memcpy ∨
          9 < calls ∧ call = ClientCall.enableKind ⟨1⟩ .kernel then some "refused" else none }
    let session : Session := { config := {}, monitor := { gateway := { client } } }
    let started := ({ session } : System).run [.register 0 0 ⟨1⟩, .register 1 1 ⟨2⟩,
      .switchKindsOf ⟨1⟩ [.driver, .kernel, .memcpy] true, .start 0 .session 0, .start 1 .session 1]
    let resumed := ((started.step (.pause 0 true)).run
      [.switchSet 0 .overhead true, .stop 1]).step (.start 0 .session 2)
    Session.build {} client = .ok session ∧ resumed.Enabled ⟨1⟩ .memcpy ∧
      resumed.Enabled ⟨1⟩ .driver ∧ resumed.Enabled ⟨1⟩ .overhead ∧
      ¬ resumed.Enabled ⟨1⟩ .kernel := by
  intro client session started resumed
  have hbuild : Session.build {} client = .ok session := rfl
  have ht : started.tracer? 0 =
      some { device := 0, globalId := 0, context := ⟨1⟩, state := .started } := by
    decide +kernel
  obtain ⟨-, events, hjournal, hrecorded, -, -, -⟩ := enabled_after_resume hbuild _ ht rfl
    [.switchSet 0 .overhead true, .stop 1] (by decide +kernel) (.inr ⟨.session, 2, rfl⟩)
  have hevents : events = [.call (.registerCallbacks true) none,
      .call (.enableKind ⟨1⟩ .kernel) (some (.client "enable_kind" "refused")),
      .failure ⟨.deviceClient, "enable_kind", "enable_kind failed: refused"⟩,
      .call (.enableKind ⟨1⟩ .driver) none] := by
    refine List.append_cancel_left (hjournal.symm.trans ?_)
    decide +kernel
  have hdriver : ¬ Refused events (.enableKind ⟨1⟩ .driver) := by
    simp [hevents, Refused]
  have hkernel : Refused events (.enableKind ⟨1⟩ .kernel) := by
    simp [hevents, Refused]
  refine ⟨hbuild, (hrecorded .memcpy).mpr ⟨.inr ?_, fun h => h.2.1 ?_⟩,
    (hrecorded .driver).mpr ⟨.inr ?_, fun h => hdriver h.2.2⟩,
    (hrecorded .overhead).mpr ⟨.inl ?_, fun h => h.2.1 ?_⟩,
    fun h => ((hrecorded .kernel).mp h).2 ⟨?_, ?_, hkernel⟩⟩
  all_goals decide +kernel

end System
end DeviceTrace
