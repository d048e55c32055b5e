import DeviceTrace.Proofs.Session.Tracers

/-!
# Shares of the client

A session counts its tracers instead of looking at them. The counts are right in every state of
every run, whatever calls the client refuses, and the calls so far agree with them: the client is
subscribed while some trace is active, each unsubscription is sealed by a finalization, and the
callbacks last installed deliver while some trace is running.
-/

namespace DeviceTrace

/-! ## Calls that agree with counts -/

/-- Each `unsubscribe` is followed at once by `finalize`, which stands nowhere else. -/
structure Sealed (calls : List ClientCall) : Prop where
  first : calls[0]? ≠ some .finalize
  follows : ∀ n, calls[n]? = some .unsubscribe ↔ calls[n + 1]? = some .finalize

namespace Sealed

variable {calls more : List ClientCall}

theorem nil : Sealed [] := ⟨by simp, by simp⟩

theorem append (h : Sealed calls) (hmore : Sealed more) : Sealed (calls ++ more) := by
  refine ⟨?first, fun n => ?follows⟩
  case first =>
    cases calls with
    | nil => exact hmore.first
    | cons call calls => exact h.first
  case follows =>
    rcases Nat.lt_trichotomy (n + 1) calls.length with hlt | heq | hgt
    · rw [List.getElem?_append_left (by omega), List.getElem?_append_left hlt]
      exact h.follows n
    · -- the last of the first calls is no `unsubscribe`, because nothing follows it there
      have hlast : calls[n]? ≠ some .unsubscribe := by
        intro hcall
        have := (h.follows n).mp hcall
        simp [heq] at this
      rw [List.getElem?_append_left (by omega), List.getElem?_append_right (by omega), heq,
        Nat.sub_self]
      exact ⟨fun hcall => absurd hcall hlast, fun hcall => absurd hcall hmore.first⟩
    · rw [List.getElem?_append_right (by omega), List.getElem?_append_right (by omega),
        Nat.sub_add_comm (by omega)]
      exact hmore.follows (n - calls.length)

theorem of_none (hnone : ∀ call ∈ calls, call ≠ .unsubscribe ∧ call ≠ .finalize) :
    Sealed calls := by
  have hget (call : ClientCall) (n : Nat) (h : calls[n]? = some call) :
      call ≠ .unsubscribe ∧ call ≠ .finalize := hnone call (List.mem_of_getElem? h)
  refine ⟨fun h => (hget _ 0 h).2 rfl, fun n => ⟨fun h => ?_, fun h => ?_⟩⟩
  · exact absurd rfl (hget _ n h).1
  · exact absurd rfl (hget _ (n + 1) h).2

theorem unsubscribe_finalize : Sealed [.unsubscribe, .finalize] := by
  refine ⟨by simp, fun n => ?_⟩
  match n with
  | 0 => simp
  | 1 => simp
  | n + 2 => simp

end Sealed

/-- The callbacks that were installed last. -/
def lastInstalled? (calls : List ClientCall) : Option Bool :=
  (calls.filterMap ClientCall.installed?).getLast?

theorem lastInstalled?_append (calls : List ClientCall) {more : List ClientCall}
    (h : ∀ call ∈ more, call.installed? = none) :
    lastInstalled? (calls ++ more) = lastInstalled? calls := by
  rw [lastInstalled?, List.filterMap_append, List.filterMap_eq_nil_iff.mpr h, List.append_nil]
  rfl

/-- These calls leave this many shares of the client and of its callbacks. -/
structure Booked (calls : List ClientCall) (active delivering : Nat) : Prop where
  subscribed : calls.count .subscribe = calls.count .unsubscribe + if 0 < active then 1 else 0
  sealed : Sealed calls
  installed : lastInstalled? calls = some true ↔ 0 < delivering

namespace Booked

variable {calls more : List ClientCall} {active delivering : Nat}

theorem nil : Booked [] 0 0 := ⟨rfl, .nil, by simp [lastInstalled?]⟩

/-- Calls outside of the lifecycle leave the shares as they are. -/
theorem append (h : Booked calls active delivering)
    (hmore : ∀ call ∈ more, call.isLifecycle = false) :
    Booked (calls ++ more) active delivering := by
  have hcount (call : ClientCall) (hcall : call.isLifecycle = true) : more.count call = 0 := by
    rw [List.count_eq_zero]
    intro hmem
    rw [hmore call hmem] at hcall
    cases hcall
  have hinstalled : ∀ call ∈ more, call.installed? = none := by
    intro call hmem
    have := hmore call hmem
    cases call <;> first | rfl | cases this
  refine ⟨?subscribed, h.sealed.append (.of_none fun call hmem => ?sealed), ?installed⟩
  case subscribed =>
    rw [List.count_append, List.count_append, hcount _ rfl, hcount _ rfl]
    exact h.subscribed
  case sealed =>
    constructor <;> rintro rfl <;> cases hmore _ hmem
  case installed =>
    rw [lastInstalled?_append calls hinstalled]
    exact h.installed

theorem subscribe (h : Booked calls 0 delivering) :
    Booked (calls ++ [.subscribe]) 1 delivering := by
  refine ⟨?_, h.sealed.append (.of_none (by simp)), ?_⟩
  · have := h.subscribed
    simp [List.count_append] at this ⊢
    exact this
  · rw [lastInstalled?_append calls (by simp [ClientCall.installed?])]
    exact h.installed

theorem unsubscribe (h : Booked calls 1 delivering) :
    Booked (calls ++ [.unsubscribe, .finalize]) 0 delivering := by
  refine ⟨?_, h.sealed.append .unsubscribe_finalize, ?_⟩
  · have := h.subscribed
    simp [List.count_append] at this ⊢
    exact this
  · rw [lastInstalled?_append calls (by simp [ClientCall.installed?])]
    exact h.installed

/-- Only whether there is an active trace matters to the calls. -/
theorem recount (h : Booked calls active delivering) {active' : Nat} (hpos : 0 < active)
    (hpos' : 0 < active') : Booked calls active' delivering := by
  refine ⟨?_, h.sealed, h.installed⟩
  have := h.subscribed
  rw [if_pos hpos] at this
  rwa [if_pos hpos']

theorem install (h : Booked calls active delivering) :
    Booked (calls ++ [.registerCallbacks true]) active (delivering + 1) := by
  refine ⟨?_, h.sealed.append (.of_none (by simp)), ?_⟩
  · simpa [List.count_append] using h.subscribed
  · simp [lastInstalled?, ClientCall.installed?]

theorem uninstall (h : Booked calls active delivering) :
    Booked (calls ++ [.registerCallbacks false]) active 0 := by
  refine ⟨?_, h.sealed.append (.of_none (by simp)), ?_⟩
  · simpa [List.count_append] using h.subscribed
  · simp [lastInstalled?, ClientCall.installed?]

/-- While callbacks deliver, it does not matter how many traces want them. -/
theorem redeliver (h : Booked calls active delivering) {delivering' : Nat} (hpos : 0 < delivering)
    (hpos' : 0 < delivering') : Booked calls active delivering' :=
  ⟨h.subscribed, h.sealed, by simp [h.installed, hpos, hpos']⟩

end Booked

/-! ## Sessions -/

namespace Session

variable {s s' : Session}

/-- The calls so far agree with the counts of the session. -/
abbrev Booked (s : Session) : Prop :=
  DeviceTrace.Booked s.gateway.calls s.activeTraces s.deliveringTraces

theorem calls_tell (s : Session) (call : ClientCall) :
    (s.tell call).gateway.calls = s.gateway.calls ++ [call] :=
  (Gateway.Makes.one s.gateway call).calls_eq

/-- Quiet steps change neither the counts nor whether the calls agree with them. -/
theorem Quiets.booked (h : s.Quiets s') (hs : s.Booked) :
    s'.Booked ∧ s'.activeTraces = s.activeTraces ∧ s'.deliveringTraces = s.deliveringTraces := by
  obtain ⟨⟨calls, hmakes, hlifecycle⟩, hsame⟩ := h.frame
  refine ⟨?_, ?_, ?_⟩
  · rw [hsame]
    show DeviceTrace.Booked s'.gateway.calls s.activeTraces s.deliveringTraces
    rw [hmakes.calls_eq]
    exact hs.append hlifecycle
  · rw [hsame]
  · rw [hsame]

theorem booked_addTrace (hs : s.Booked) : s.addTrace.Booked := by
  unfold addTrace
  by_cases hzero : s.activeTraces = 0
  · rw [if_pos hzero]
    show DeviceTrace.Booked (tell _ _).gateway.calls (s.activeTraces + 1) s.deliveringTraces
    rw [calls_tell, hzero]
    exact Booked.subscribe (hzero ▸ hs)
  · rw [if_neg hzero]
    exact hs.recount (by omega) (Nat.succ_pos _)

theorem booked_removeTrace (hs : s.Booked) (hpos : 0 < s.activeTraces) : s.removeTrace.Booked := by
  unfold removeTrace
  by_cases hone : s.activeTraces = 1
  · rw [if_pos hone]
    show DeviceTrace.Booked (tell (tell _ _) _).gateway.calls (s.activeTraces - 1)
      s.deliveringTraces
    rw [calls_tell, calls_tell, hone, List.append_assoc]
    exact Booked.unsubscribe (hone ▸ hs)
  · rw [if_neg hone]
    exact hs.recount hpos (by show 0 < s.activeTraces - 1; omega)

theorem booked_openDelivery (hs : s.Booked) : s.openDelivery.Booked := by
  show DeviceTrace.Booked (tell _ _).gateway.calls s.activeTraces (s.deliveringTraces + 1)
  rw [calls_tell]
  exact hs.install

theorem booked_closeDelivery (hs : s.Booked) (hpos : 0 < s.deliveringTraces) :
    s.closeDelivery.Booked := by
  unfold closeDelivery
  by_cases hone : s.deliveringTraces = 1
  · rw [if_pos hone]
    show DeviceTrace.Booked (tell _ _).gateway.calls s.activeTraces (s.deliveringTraces - 1)
    rw [calls_tell, hone]
    exact hs.uninstall
  · rw [if_neg hone]
    exact hs.redeliver hpos (by show 0 < s.deliveringTraces - 1; omega)

end Session

/-! ## Tracers -/

/-- Whether a trace wants records delivered. -/
def TraceState.isStarted : TraceState → Bool
  | .started => true
  | .uninitialized | .initialized | .paused | .stopped => false

/-- A move of a tracer changes the counts as it changes the state of the tracer, and counts off only
what was counted. -/
theorem TraceMove.booked {t t' : Tracer} {s s' : Session} (h : TraceMove t s t' s') (hs : s.Booked)
    (hactive : t.state.isActive.toNat ≤ s.activeTraces)
    (hstarted : t.state.isStarted.toNat ≤ s.deliveringTraces) :
    s'.Booked ∧
      s'.activeTraces + t.state.isActive.toNat = s.activeTraces + t'.state.isActive.toNat ∧
      s'.deliveringTraces + t.state.isStarted.toNat =
        s.deliveringTraces + t'.state.isStarted.toNat := by
  cases h with
  | prepare hstate => exact ⟨hs, by rw [hstate]; rfl, by rw [hstate]; rfl⟩
  | begin source callback hstate =>
    let opened := { s with source }.setCallback t.device (some callback)
    have hadd := opened.counts_addTrace
    have hopen := opened.addTrace.counts_openDelivery
    have hset : opened.Booked := hs
    rw [hstate]
    refine ⟨Session.booked_openDelivery (Session.booked_addTrace hset), ?_, ?_⟩
    · exact hopen.activeTraces_eq.trans hadd.activeTraces_eq
    · exact hopen.deliveringTraces_eq.trans (congrArg (· + 1) hadd.deliveringTraces_eq)
  | install source callback hstate => exact ⟨hs, rfl, rfl⟩
  | suspend hstate =>
    rw [hstate] at hactive hstarted ⊢
    obtain ⟨hquiet, hactive', hdelivering'⟩ := (t.quiets_quieted s).booked hs
    have hclose := (t.quieted s).counts_closeDelivery
    have hpos : 0 < (t.quieted s).deliveringTraces := by rw [hdelivering']; exact hstarted
    refine ⟨Session.booked_closeDelivery hquiet hpos, ?_, ?_⟩
    · rw [t.suspend_eq, hclose.activeTraces_eq, hactive']
      rfl
    · rw [t.suspend_eq, hclose.deliveringTraces_eq, hdelivering']
      exact Nat.sub_add_cancel hstarted
  | resume hstate =>
    have hopen := s.counts_openDelivery
    have hquiet : s.openDelivery.Quiets (t.resume s).2 :=
      .single (.switch t.context t.pausedKinds true)
    obtain ⟨hbooked, hactive', hdelivering'⟩ := hquiet.booked (Session.booked_openDelivery hs)
    rw [hstate]
    refine ⟨hbooked, ?_, ?_⟩
    · rw [hactive', hopen.activeTraces_eq]
      rfl
    · rw [hdelivering', hopen.deliveringTraces_eq]
      rfl
  | retire hstate =>
    rw [hstate] at hactive ⊢
    let cleared := (s.forgetKinds t.context).setCallback t.device none
    have hremove := cleared.counts_removeTrace
    have hset : cleared.Booked := hs
    refine ⟨Session.booked_removeTrace hset hactive, ?_, ?_⟩
    · exact (congrArg (· + 1) hremove.activeTraces_eq).trans (Nat.sub_add_cancel hactive)
    · exact hremove.deliveringTraces_eq
  | discard hstate => rcases hstate with hstate | hstate <;> rw [hstate] <;> exact ⟨hs, rfl, rfl⟩

/-! ## Systems -/

namespace System

variable {sys sys' : System} {index : Nat} {t : Tracer}

/-- The number of live tracers in one of these states. -/
def tracersIn (sys : System) (p : TraceState → Bool) : Nat :=
  sys.tracers.countP (Option.any fun t => p t.state)

theorem toNat_le_tracersIn (p : TraceState → Bool) (h : sys.tracer? index = some t) :
    (p t.state).toNat ≤ sys.tracersIn p := by
  cases hp : p t.state with
  | false => exact Nat.zero_le _
  | true =>
    have hmem : some t ∈ sys.tracers := List.mem_of_getElem? (tracer?_eq_some.mp h)
    exact List.countP_pos_iff.mpr ⟨some t, hmem, hp⟩

theorem tracersIn_pos {p : TraceState → Bool} :
    0 < sys.tracersIn p ↔ ∃ index t, sys.tracer? index = some t ∧ p t.state := by
  constructor
  · intro h
    obtain ⟨place, hmem, hp⟩ := List.countP_pos_iff.mp h
    cases place with
    | none => cases hp
    | some t =>
      obtain ⟨index, hget⟩ := List.mem_iff_getElem?.mp hmem
      exact ⟨index, t, tracer?_eq_some.mpr hget, hp⟩
  · rintro ⟨index, t, ht, hp⟩
    have := toNat_le_tracersIn p ht
    rw [hp] at this
    exact this

/-- When a tracer changes or goes away, the number of tracers changes by what it was and is. -/
theorem tracersIn_set (p : TraceState → Bool) (h : sys.tracer? index = some t)
    (place : Option Tracer) (s' : Session) :
    ({ sys with session := s', tracers := sys.tracers.set index place } : System).tracersIn p +
        (p t.state).toNat =
      sys.tracersIn p + (place.any fun t => p t.state).toNat := by
  obtain ⟨hlt, hget⟩ := List.getElem?_eq_some_iff.mp (tracer?_eq_some.mp h)
  have hle := toNat_le_tracersIn p h
  unfold tracersIn at hle ⊢
  rw [List.countP_set hlt, hget]
  cases hp : p t.state <;> cases hplace : place.any fun t => p t.state <;> simp_all

/-- The session has counted its tracers right, and its calls agree with the counts. -/
structure Balanced (sys : System) : Prop where
  active : sys.session.activeTraces = sys.tracersIn TraceState.isActive
  started : sys.session.deliveringTraces = sys.tracersIn TraceState.isStarted
  booked : sys.session.Booked

theorem Balanced.move (hsys : sys.Balanced) (h : sys.Move sys') : sys'.Balanced := by
  cases h with
  | @trace index t t' s' ht hmove =>
    have hactive := tracersIn_set TraceState.isActive ht (some t') s'
    have hstarted := tracersIn_set TraceState.isStarted ht (some t') s'
    obtain ⟨hbooked, hactive', hstarted'⟩ := hmove.booked hsys.booked
      (hsys.active ▸ toNat_le_tracersIn TraceState.isActive ht)
      (hsys.started ▸ toNat_le_tracersIn TraceState.isStarted ht)
    rw [hsys.active] at hactive'
    rw [hsys.started] at hstarted'
    exact ⟨Nat.add_right_cancel (hactive'.trans hactive.symm),
      Nat.add_right_cancel (hstarted'.trans hstarted.symm), hbooked⟩
  | @lapse index t ht hinactive =>
    have hnotStarted : t.state.isStarted = false := by
      cases hstate : t.state <;> rw [hstate] at hinactive <;> first | rfl | cases hinactive
    have hactive := tracersIn_set TraceState.isActive ht none sys.session
    have hstarted := tracersIn_set TraceState.isStarted ht none sys.session
    rw [hinactive] at hactive
    rw [hnotStarted] at hstarted
    exact ⟨hsys.active.trans hactive.symm, hsys.started.trans hstarted.symm, hsys.booked⟩
  | @quiet s' hquiet =>
    obtain ⟨hbooked, hactive, hstarted⟩ := Session.Quiets.booked (.single hquiet) hsys.booked
    exact ⟨hactive.trans hsys.active, hstarted.trans hsys.started, hbooked⟩
  | release => exact ⟨hsys.active, hsys.started, hsys.booked⟩

theorem Balanced.register (hsys : sys.Balanced) (device : DeviceId) (globalId : Int32)
    (context : ContextHandle) : (sys.register device globalId context).Balanced := by
  have hnew (p : TraceState → Bool) (hp : p .uninitialized = false) :
      (sys.register device globalId context).tracersIn p = sys.tracersIn p := by
    simp [tracersIn, System.register, hp]
  refine ⟨?_, ?_, hsys.booked⟩
  · rw [hnew _ rfl]
    exact hsys.active
  · rw [hnew _ rfl]
    exact hsys.started

theorem balanced_run (hsys : sys.Balanced) (ops : List Operation) : (sys.run ops).Balanced :=
  run_keeps (fun _ _ ha hmove => ha.move hmove)
    (fun _ device globalId context ha => ha.register device globalId context)
    (fun _ _ ha => ⟨ha.active, ha.started, ha.booked⟩) hsys ops

theorem build_eq {config : SessionConfig} {client : DeviceClient} {session : Session}
    (h : Session.build config client = .ok session) :
    session = { config, monitor := { gateway := { client } } } := by
  unfold Session.build at h
  dsimp only at h
  split at h
  · cases h
  · split at h
    · cases h
    · cases hchecked : config.layout.checked with
      | error e => rw [hchecked] at h; cases h
      | ok layout => rw [hchecked] at h; exact (Except.ok.inj h).symm

theorem balanced_of_build {config : SessionConfig} {client : DeviceClient} {session : Session}
    (h : Session.build config client = .ok session) : Balanced { session } := by
  rw [build_eq h]
  exact ⟨rfl, rfl, .nil⟩

/-- In every state that a session and its tracers can reach, with any client and whatever it
refuses: the session counts the traces that have started and not stopped, and those of them that are
not paused, so that it never counts one off that it did not count; the client is subscribed once as
long as there is an active trace; it is finalized after each `unsubscribe` and at no other time; the
callbacks installed last deliver as long as a trace is running; and a stopped tracer stays so. -/
theorem shares_of_run {config : SessionConfig} {client : DeviceClient} {session : Session}
    (h : Session.build config client = .ok session) (ops : List Operation) :
    let sys := ({ session } : System).run ops
    let calls := sys.session.gateway.calls
    sys.session.activeTraces =
        sys.tracers.countP (Option.any fun t => t.state = .started ∨ t.state = .paused) ∧
      sys.session.deliveringTraces = sys.tracers.countP (Option.any fun t => t.state = .started) ∧
      (∀ index t, sys.tracer? index = some t →
        (t.state = .started ∨ t.state = .paused → 0 < sys.session.activeTraces) ∧
          (t.state = .started → 0 < sys.session.deliveringTraces)) ∧
      calls.count .subscribe =
        calls.count .unsubscribe + (if 0 < sys.session.activeTraces then 1 else 0) ∧
      (calls[0]? ≠ some .finalize ∧
        ∀ n, calls[n]? = some .unsubscribe ↔ calls[n + 1]? = some .finalize) ∧
      ((calls.filterMap ClientCall.installed?).getLast? = some true ↔
        ∃ index t, sys.tracer? index = some t ∧ t.state = .started) ∧
      ∀ index t, sys.tracer? index = some t → t.state = .stopped → ∀ more t',
        (sys.run more).tracer? index = some t' → t'.state = .stopped := by
  intro sys calls
  have hsys : sys.Balanced := balanced_run (balanced_of_build h) ops
  have hactive (st : TraceState) :
      st.isActive = decide (st = .started ∨ st = .paused) := by cases st <;> rfl
  have hstarted (st : TraceState) : st.isStarted = decide (st = .started) := by cases st <;> rfl
  refine ⟨?activeCount, ?startedCount, fun index t ht => ⟨fun hstate => ?_, fun hstate => ?_⟩,
    hsys.booked.subscribed, ⟨hsys.booked.sealed.first, hsys.booked.sealed.follows⟩, ?lastInstalled,
    fun index t ht hstate more t' ht' => ?staysStopped⟩
  case activeCount =>
    simpa only [tracersIn, hactive] using hsys.active
  case startedCount =>
    simpa only [tracersIn, hstarted] using hsys.started
  · rw [hsys.active]
    exact tracersIn_pos.mpr ⟨index, t, ht, by simpa [hactive] using hstate⟩
  · rw [hsys.started]
    exact tracersIn_pos.mpr ⟨index, t, ht, by simpa [hstarted] using hstate⟩
  case lastInstalled =>
    have hinstalled := hsys.booked.installed
    rw [hsys.started, tracersIn_pos] at hinstalled
    simp only [hstarted, decide_eq_true_eq] at hinstalled
    exact hinstalled
  case staysStopped =>
    have hended : sys.Ended index := by
      refine ⟨lt_of_tracer? ht, fun u hu => ?_⟩
      rw [ht] at hu
      cases hu
      exact hstate
    exact (ended_run hended more).stopped t' ht'

/-- A client that refuses every call, and two traces of which one is paused and one stopped. -/
theorem shares_of_run_refused :
    ∃ session : Session,
      Session.build {} { refuses := fun _ _ => some "refused" } = .ok session ∧
        (({ session } : System).run [.register 0 0 ⟨1⟩, .register 1 1 ⟨2⟩, .start 0 .session 0,
          .start 1 .session 1, .pause 0 true, .stop 1]).session.activeTraces = 1 := by
  obtain ⟨session, hbuild⟩ : ∃ session : Session,
      Session.build {} { refuses := fun _ _ => some "refused" } = .ok session := ⟨_, rfl⟩
  refine ⟨session, hbuild, (shares_of_run hbuild _).1.trans ?_⟩
  rw [build_eq hbuild]
  decide +kernel

end System
end DeviceTrace
