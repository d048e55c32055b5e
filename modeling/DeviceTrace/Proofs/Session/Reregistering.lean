import DeviceTrace.Proofs.Session.Pausing

/-!
# Devices that are registered again

A tracer knows its device by the relative id alone. When the id is registered again, the device gets
a new entry and a new tracer, but the older tracers of the id are still there, and what they do to
their callback they do to the new entry. So the records of the device go to the callback that some
tracer of the id was started with last, and to none once some trace of the id has been stopped after
that, also while the newest trace is running.
-/

namespace DeviceTrace

/-- What an operation of a trace in this state makes of the callback of its device, none if it
leaves the callback alone. -/
def Operation.installs? (state : TraceState) : Operation → Option (Option Nat)
  | .start _ _ callback => if state = .stopped then none else some (some callback)
  | .stop _ | .drop _ => if state.isActive then some none else none
  | _ => none

theorem Session.spanEvent?_of_entry {s : Session} {bytes : Bytes} {span : Span} {entry : Device}
    (h : s.devices[span.device]? = some entry) : s.spanEvent? bytes span =
      entry.callback.map fun callback =>
        .records callback ⟨entry.globalId, span.context, bytes.slice span.start span.stop⟩ := by
  unfold spanEvent?
  rw [h]

theorem Session.entry_setCallback {s s' : Session} {id : DeviceId} {installed : Option (Option Nat)}
    (h : s'.devices = (installed.elim s fun callback => s.setCallback id callback).devices)
    (device : DeviceId) : s'.devices[device]? = s.devices[device]?.map fun entry =>
      { entry with callback := (if id = device then installed else none).getD entry.callback } := by
  rw [h]
  cases installed with
  | none =>
    rw [ite_self]
    exact (Option.map_id' ..).symm
  | some callback =>
    show (s.setCallback id callback).devices[device]? = _
    rw [devices_setCallback]
    by_cases heq : device = id
    · subst heq
      simp
    · rw [if_neg heq, if_neg fun h => heq h.symm]
      exact (Option.map_id' ..).symm

namespace Tracer

theorem devices_start (t : Tracer) (s : Session) (source : BufferSource) (callback index : Nat) :
    (t.start s source callback).2.2.devices =
      ((Operation.start index source callback).installs? t.state |>.elim s fun callback =>
        s.setCallback t.device callback).devices := by
  rw [(t.start_same s source callback).2.2]
  by_cases hstopped : t.state = .stopped <;> simp [Operation.installs?, hstopped]

theorem devices_stop (t : Tracer) (s : Session) (index : Nat) :
    (t.stop s).2.devices = ((Operation.stop index).installs? t.state |>.elim s fun callback =>
      s.setCallback t.device callback).devices := by
  rw [(t.stop_same s).2]
  cases hactive : t.state.isActive <;> simp [Operation.installs?, hactive]

theorem devices_dispose (t : Tracer) (s : Session) (index : Nat) :
    (t.dispose s).devices = ((Operation.drop index).installs? t.state |>.elim s fun callback =>
      s.setCallback t.device callback).devices := by
  have hstop := t.devices_stop s index
  unfold dispose
  cases hstate : t.state with
  | started | paused =>
    rw [hstate] at hstop
    exact hstop
  | uninitialized | initialized | stopped => rfl

end Tracer

namespace System

variable {sys : System} {index : Nat} {t : Tracer}

/-- What an operation makes of the callback of a device, none if it leaves the callback alone. -/
def installs? (sys : System) (device : DeviceId) (op : Operation) : Option (Option Nat) :=
  (op.subject?.bind sys.tracer?).bind fun t =>
    if t.device = device then op.installs? t.state else none

theorem exists_of_installs? {device : DeviceId} {op : Operation} {installed : Option Nat}
    (h : sys.installs? device op = some installed) : ∃ j u, op.subject? = some j ∧
      sys.tracer? j = some u ∧ u.device = device ∧ op.installs? u.state = some installed := by
  obtain ⟨u, hu, hinstalls⟩ := Option.bind_eq_some_iff.mp h
  obtain ⟨j, hj, hu⟩ := Option.bind_eq_some_iff.mp hu
  split at hinstalls
  · exact ⟨j, u, hj, hu, ‹_›, hinstalls⟩
  · cases hinstalls

/-- The callback that a device is left with by these operations, if it has this one before. -/
def receiver? (sys : System) (device : DeviceId) (callback : Option Nat) (ops : List Operation) :
    Option Nat :=
  ((sys.trail ops).filterMap fun entry => entry.1.installs? device entry.2).getLast?.getD callback

theorem receiver?_concat (sys : System) (device : DeviceId) (callback : Option Nat)
    (ops : List Operation) (op : Operation) :
    sys.receiver? device callback (ops ++ [op]) =
      ((sys.run ops).installs? device op).getD (sys.receiver? device callback ops) := by
  unfold receiver?
  rw [trail_concat, List.filterMap_append, List.getLast?_append]
  cases h : (sys.run ops).installs? device op <;> simp [h]

theorem receiver?_of_untouched {device : DeviceId} {ops : List Operation}
    (h : ∀ entry ∈ sys.trail ops, entry.1.installs? device entry.2 = none) (callback : Option Nat) :
    sys.receiver? device callback ops = callback := by
  unfold receiver?
  rw [List.filterMap_eq_nil_iff.mpr h]
  rfl

/-- Short of registering the device again, an operation does to its entry what it installs. -/
theorem entry_step (sys : System) {device : DeviceId} {op : Operation}
    (hop : ∀ globalId context, op ≠ .register device globalId context) :
    (sys.step op).session.devices[device]? = sys.session.devices[device]?.map fun entry =>
      { entry with callback := (sys.installs? device op).getD entry.callback } := by
  have hsame (hnone : sys.installs? device op = none) : sys.session.devices[device]? =
      sys.session.devices[device]?.map fun entry =>
        { entry with callback := (sys.installs? device op).getD entry.callback } := by
    rw [hnone]
    exact (Option.map_id' ..).symm
  have hcommand {index : Nat} {operation : Tracer → Session → Bool × Tracer × Session}
      (hsubject : op.subject? = some index)
      (hdevices : ∀ t s, (operation t s).2.2.devices = (op.installs? t.state |>.elim s
        fun callback => s.setCallback t.device callback).devices) :
      (sys.command index operation).2.session.devices[device]? =
        sys.session.devices[device]?.map fun entry =>
          { entry with callback := (sys.installs? device op).getD entry.callback } := by
    cases ht : sys.tracer? index with
    | none =>
      rw [command_none ht]
      exact hsame (by simp [installs?, hsubject, ht])
    | some t =>
      have hinstalls : sys.installs? device op =
          if t.device = device then op.installs? t.state else none := by
        simp [installs?, hsubject, ht]
      rw [command_some ht, hinstalls]
      exact Session.entry_setCallback (hdevices t sys.session) device
  by_cases hquiet : op.isQuiet
  · obtain ⟨s', hs', hstep⟩ := sys.step_quiet hquiet
    have hnone : sys.installs? device op = none := by
      cases op <;> first | rfl | cases hquiet
    rw [hstep]
    show s'.devices[device]? = _
    rw [hs'.devices_eq]
    exact hsame hnone
  · cases op with
    | register other globalId context =>
      dsimp only [step, perform]
      split
      · show (sys.session.devices.insert other _)[device]? = _
        have hne : compare other device ≠ .eq := by
          intro heq
          obtain rfl := Std.LawfulEqCmp.eq_of_compare heq
          exact hop globalId context rfl
        rw [Std.TreeMap.getElem?_insert, if_neg hne]
        exact hsame rfl
      · exact hsame rfl
    | prepare index => exact hcommand rfl fun _ _ => rfl
    | start index source callback =>
      exact hcommand rfl fun t s => t.devices_start s source callback index
    | pause index begin => exact hcommand rfl fun t s => (t.pause_same s begin).2.2
    | stop index => exact hcommand rfl fun t s => t.devices_stop s index
    | drop index =>
      show (sys.dropTracer index).2.session.devices[device]? = _
      unfold dropTracer
      cases ht : sys.tracer? index with
      | none => exact hsame (by simp [installs?, Operation.subject?, ht])
      | some t =>
        have hinstalls : sys.installs? device (.drop index) =
            if t.device = device then (Operation.drop index).installs? t.state else none := by
          simp [installs?, Operation.subject?, ht]
        rw [hinstalls]
        exact Session.entry_setCallback (t.devices_dispose sys.session index) device
    | forget context =>
      dsimp only [step, perform, owned]
      split <;> exact hsame rfl
    | release => exact hsame rfl
    | _ => exact absurd rfl hquiet

/-- As long as a device is not registered again, its callback is the one installed last. -/
theorem entry_run {device : DeviceId} {entry : Device}
    (hentry : sys.session.devices[device]? = some entry) (ops : List Operation)
    (hops : ∀ globalId context, .register device globalId context ∉ ops) :
    (sys.run ops).session.devices[device]? =
      some { entry with callback := sys.receiver? device entry.callback ops } := by
  induction ops using List.reverseRecOn with
  | nil => exact hentry
  | append_singleton ops op ih =>
    have hbefore := ih fun globalId context hmem =>
      hops globalId context (List.mem_append_left _ hmem)
    have hop (globalId : Int32) (context : ContextHandle) :
        op ≠ .register device globalId context := by
      rintro rfl
      exact hops globalId context (List.mem_append_right _ (List.mem_singleton.mpr rfl))
    rw [run_concat, entry_step _ hop, hbefore, receiver?_concat]
    rfl

/-! ## The start of a running trace -/

/-- Once a trace is stopped, or its tracer let go of, it is not active. -/
theorem inactive_of_retired (sys : System) {op : Operation}
    (hop : op = .stop index ∨ op = .drop index) (ht : (sys.step op).tracer? index = some t) :
    t.state.isActive = false := by
  rcases hop with rfl | rfl
  · change (sys.command index _).2.tracer? index = some t at ht
    cases hu : sys.tracer? index with
    | none =>
      rw [command_none hu, hu] at ht
      cases ht
    | some u =>
      rw [command_some hu, tracer?_withTracer hu, if_pos rfl] at ht
      cases ht
      exact u.isActive_stop sys.session
  · change (sys.dropTracer index).2.tracer? index = some t at ht
    unfold dropTracer at ht
    cases hu : sys.tracer? index with
    | none =>
      rw [hu, hu] at ht
      cases ht
    | some u =>
      rw [hu] at ht
      exact absurd rfl (tracer?_lapse.mp ht).1

theorem inactive_step (hplaced : index < sys.tracers.length)
    (hinactive : ∀ t, sys.tracer? index = some t → t.state.isActive = false) {op : Operation}
    (hop : op.callback? index = none) {u : Tracer} (hu : (sys.step op).tracer? index = some u) :
    u.state.isActive = false := by
  obtain ⟨t, ht, -⟩ := (tracer?_of_run hplaced [op]).2 u hu
  have hcommand {operation : Tracer → Session → Bool × Tracer × Session}
      (hstep : sys.step op = (sys.command index operation).2)
      (hkept : (operation t sys.session).2.1.state.isActive = t.state.isActive) :
      u.state.isActive = false := by
    rw [hstep, command_some ht, tracer?_withTracer ht, if_pos rfl] at hu
    cases hu
    exact hkept.trans (hinactive t ht)
  by_cases hsubject : op.subject? = some index
  · cases op with
    | prepare j =>
      obtain rfl := Option.some.inj hsubject
      exact hcommand rfl t.prepare_same.2
    | start j source callback =>
      obtain rfl := Option.some.inj hsubject
      simp [Operation.callback?] at hop
    | pause j begin =>
      obtain rfl := Option.some.inj hsubject
      exact hcommand rfl (t.pause_same sys.session begin).2.1
    | stop j =>
      obtain rfl := Option.some.inj hsubject
      exact sys.inactive_of_retired (.inl rfl) hu
    | drop j =>
      obtain rfl := Option.some.inj hsubject
      exact sys.inactive_of_retired (.inr rfl) hu
    | _ => cases hsubject
  · rw [tracer?_step ht hsubject] at hu
    exact hinactive u (ht.trans hu)

/-- A trace that is not active is not so later either, unless it is started. -/
theorem inactive_run (hplaced : index < sys.tracers.length)
    (hinactive : ∀ t, sys.tracer? index = some t → t.state.isActive = false) (ops : List Operation)
    (hops : ∀ op ∈ ops, op.callback? index = none) {u : Tracer}
    (hu : (sys.run ops).tracer? index = some u) : u.state.isActive = false := by
  induction ops generalizing sys with
  | nil => exact hinactive u hu
  | cons op ops ih =>
    refine ih (tracer?_of_run hplaced [op]).1 (fun t ht => ?_)
      (fun other hmem => hops other (List.mem_cons_of_mem _ hmem)) hu
    exact inactive_step hplaced hinactive (hops op List.mem_cons_self) ht

/-- A trace was started for the last time at some point, if at all. -/
theorem exists_last_start (index : Nat) (ops : List Operation) :
    (∀ op ∈ ops, op.callback? index = none) ∨
      ∃ before source callback after, ops = before ++ .start index source callback :: after ∧
        ∀ op ∈ after, op.callback? index = none := by
  induction ops using List.reverseRecOn with
  | nil => exact .inl fun op hmem => by cases hmem
  | append_singleton ops op ih =>
    cases hop : op.callback? index with
    | none =>
      rcases ih with hnone | ⟨before, source, callback, after, rfl, hafter⟩
      · refine .inl fun other hmem => ?_
        rcases List.mem_append.mp hmem with hmem | hmem
        · exact hnone other hmem
        · exact List.mem_singleton.mp hmem ▸ hop
      · refine .inr ⟨before, source, callback, after ++ [op], by simp, fun other hmem => ?_⟩
        rcases List.mem_append.mp hmem with hmem | hmem
        · exact hafter other hmem
        · exact List.mem_singleton.mp hmem ▸ hop
    | some callback =>
      cases op with
      | start j source given =>
        have hj : j = index := by
          by_contra hne
          simp [Operation.callback?, hne] at hop
        subst hj
        exact .inr ⟨ops, source, given, [], rfl, fun op hmem => by cases hmem⟩
      | _ => cases hop

/-- After the last start of a trace that is active, its tracer installs no callback. -/
theorem subject?_of_installs? (hactive : t.state.isActive = true) {ops : List Operation}
    (ht : (sys.run ops).tracer? index = some t) (hops : ∀ op ∈ ops, op.callback? index = none)
    {before after : List Operation} {op : Operation} (hsplit : ops = before ++ op :: after)
    {device : DeviceId} {installed : Option Nat}
    (hinstalls : (sys.run before).installs? device op = some installed) :
    op.subject? ≠ some index := by
  intro hsubject
  subst hsplit
  obtain ⟨j, u, hj, hu, -, hinstalled⟩ := exists_of_installs? hinstalls
  obtain rfl : index = j := Option.some.inj (hsubject.symm.trans hj)
  have hretired : op = .stop index ∨ op = .drop index := by
    have hop := hops op (List.mem_append_right _ List.mem_cons_self)
    cases op with
    | stop j => exact .inl (congrArg _ (Option.some.inj hsubject))
    | drop j => exact .inr (congrArg _ (Option.some.inj hsubject))
    | start j source callback =>
      obtain rfl := Option.some.inj hsubject
      simp [Operation.callback?] at hop
    | _ => cases hinstalled
  have hplaced : index < ((sys.run before).step op).tracers.length :=
    (tracer?_of_run (lt_of_tracer? hu) [op]).1
  rw [run_append] at ht
  have hinactive := inactive_run hplaced (fun u hu => inactive_of_retired _ hretired hu) after
    (fun other hmem => hops other (List.mem_append_right _ (List.mem_cons_of_mem _ hmem))) ht
  rw [hactive] at hinactive
  cases hinactive

/-- Tracers that are made while a device is not registered again are of other devices. -/
theorem device_of_newer {device : DeviceId} (ops : List Operation)
    (hops : ∀ globalId context, .register device globalId context ∉ ops) {u : Tracer}
    (hplace : sys.tracers.length ≤ index) (hu : (sys.run ops).tracer? index = some u) :
    u.device ≠ device := by
  induction ops using List.reverseRecOn generalizing u with
  | nil =>
    have hlt := lt_of_tracer? hu
    rw [run_nil] at hlt
    omega
  | append_singleton ops op ih =>
    rw [run_concat] at hu
    rcases (sys.run ops).exists_before op hu with ⟨v, hv, hsame⟩ | ⟨-, hregister⟩
    · rw [hsame.device]
      exact ih (fun globalId context hmem =>
        hops globalId context (List.mem_append_left _ hmem)) hv
    · cases op with
      | register other globalId context =>
        cases hregister
        rintro rfl
        exact hops globalId context (List.mem_append_right _ (List.mem_singleton.mpr rfl))
      | _ => cases hregister

/-- Let the trace of the tracer that a device was registered for last be active. It was started for
the last time at some point, and since then only older tracers installed callbacks for the device.
-/
theorem entry_of_latest {u : Tracer} {entry : Device} (hnew : sys.tracer? index = some u)
    (hinactive : u.state.isActive = false) (hlength : sys.tracers.length = index + 1)
    (hentry : sys.session.devices[u.device]? = some entry) (rest : List Operation)
    (hrest : ∀ globalId context, .register u.device globalId context ∉ rest)
    (ht : (sys.run rest).tracer? index = some t) (hactive : t.state.isActive = true) :
    ∃ before source callback after, rest = before ++ .start index source callback :: after ∧
      (∀ op ∈ after, op.callback? index = none) ∧
      let restarted := sys.run (before ++ [.start index source callback])
      (∀ entry ∈ restarted.trail after, (entry.1.installs? u.device entry.2).isSome →
        ∃ older < index, entry.2.subject? = some older) ∧
      (sys.run rest).session.devices[u.device]? =
        some { entry with callback := restarted.receiver? u.device (some callback) after } := by
  have hplaced : index < sys.tracers.length := by omega
  have hfresh (v : Tracer) (hv : sys.tracer? index = some v) : v.state.isActive = false := by
    rw [hnew] at hv
    exact Option.some.inj hv ▸ hinactive
  rcases exists_last_start index rest with hnone | ⟨before, source, callback, after, rfl, hafter⟩
  · rw [inactive_run hplaced hfresh rest hnone ht] at hactive
    cases hactive
  have hsplit : sys.run (before ++ .start index source callback :: after) =
      (sys.run (before ++ [.start index source callback])).run after := by
    rw [← run_append, List.append_assoc]
    rfl
  have hkept {ops : List Operation}
      (hops : ∀ op ∈ ops, op ∈ before ++ .start index source callback :: after)
      (globalId : Int32) (context : ContextHandle) : .register u.device globalId context ∉ ops :=
    fun hmem => hrest globalId context (hops _ hmem)
  refine ⟨before, source, callback, after, rfl, hafter, ?older, ?entry⟩
  case older =>
    intro item hmem hinstalls
    obtain ⟨installed, hinstalled⟩ := Option.isSome_iff_exists.mp hinstalls
    obtain ⟨j, v, hj, hv, hdevice, -⟩ := exists_of_installs? hinstalled
    obtain ⟨earlier, later, rfl, hstate⟩ := exists_of_mem_trail hmem
    rw [hstate] at hinstalled hv
    have hne : j ≠ index := by
      rintro rfl
      exact subject?_of_installs? hactive (hsplit ▸ ht) hafter rfl hinstalled hj
    -- the tracers in later places were made since then, for other devices
    have hle : j ≤ index := by
      by_contra hgt
      rw [← run_append] at hv
      refine device_of_newer _ (hkept fun op hop => ?_) (by omega) hv hdevice
      simp only [List.mem_append, List.mem_cons, List.not_mem_nil, or_false] at hop ⊢
      tauto
    exact ⟨j, Nat.lt_of_le_of_ne hle hne, hj⟩
  case entry =>
    have hbefore := entry_run hentry before (hkept fun op hop => List.mem_append_left _ hop)
    obtain ⟨hplaced', hsame⟩ := tracer?_of_run hplaced before
    rw [run_append] at ht
    obtain ⟨v, hv, -⟩ := (tracer?_of_run hplaced' _).2 t ht
    have hdevice : v.device = u.device := by
      obtain ⟨u', hu', hsame⟩ := hsame v hv
      rw [hnew] at hu'
      exact Option.some.inj hu' ▸ hsame.device
    have hlive : v.state ≠ .stopped := by
      intro hstopped
      have hended : (sys.run before).Ended index :=
        ⟨hplaced', fun w hw => Option.some.inj (hv.symm.trans hw) ▸ hstopped⟩
      rw [(ended_run hended _).stopped t ht] at hactive
      cases hactive
    have hinstalls : (sys.run before).installs? u.device (.start index source callback) =
        some (some callback) := by
      simp [installs?, Operation.subject?, hv, hdevice, Operation.installs?, hlive]
    have hstarted :
        (sys.run (before ++ [.start index source callback])).session.devices[u.device]? =
          some { entry with callback := some callback } := by
      rw [run_concat, entry_step _ (fun _ _ h => by cases h), hbefore, hinstalls]
      rfl
    rw [hsplit]
    exact entry_run hstarted after (hkept fun op hop =>
      List.mem_append_right _ (List.mem_cons_of_mem _ hop))

variable {config : SessionConfig} {client : DeviceClient} {session : Session}

/-- With a client that refuses nothing, let a device be registered, be it for the first time or
again, and let the trace of that tracer be running later, before the device is registered once more.
The trace was started for the last time at some point, with some callback, and the spans of the
device in a buffer that is completed through the callbacks of the client go to the callback that was
installed for the device last since then. This is the callback of the trace itself as long as no
tracer of the same id that is older replaces it or takes it away; if it is taken away, the spans are
dropped. -/
theorem receiver_of_latest (hbuild : Session.build config client = .ok session)
    (hwilling : client.Willing) (hidle : client.delivering = false) (first rest : List Operation)
    (device : DeviceId) (globalId : Int32) (context : ContextHandle)
    (hheld : (({ session } : System).run first).held = true)
    (hlatest : ∀ otherId other, .register device otherId other ∉ rest) {t : Tracer}
    (ht : (({ session } : System).run (first ++ .register device globalId context :: rest)).tracer?
      (({ session } : System).run first).tracers.length = some t) (hstarted : t.state = .started) :
    let sys := ({ session } : System).run (first ++ .register device globalId context :: rest)
    let index := (({ session } : System).run first).tracers.length
    ∃ before source callback after, rest = before ++ .start index source callback :: after ∧
      (∀ op ∈ after, op.callback? index = none) ∧
      let restarted := ({ session } : System).run
        (first ++ .register device globalId context :: (before ++ [.start index source callback]))
      (∀ entry ∈ restarted.trail after, (entry.1.installs? device entry.2).isSome →
        ∃ older < index, entry.2.subject? = some older) ∧
      ((∀ entry ∈ restarted.trail after, entry.1.installs? device entry.2 = none) →
        restarted.receiver? device (some callback) after = some callback) ∧
      ∀ c : Completion, ∃ told ended,
        (sys.takeBackThroughClient c).session.gateway.journal = sys.session.gateway.journal ++
          (told ++ (spans c.buffer.validBytes).filterMap
            (sys.session.spanEvent? c.buffer.validBytes) ++ ended) ∧
        (∀ e ∈ told ++ ended, ∀ receiver batch, e ≠ .records receiver batch) ∧
        ∀ span, span.device = device → sys.session.spanEvent? c.buffer.validBytes span =
          (restarted.receiver? device (some callback) after).map fun receiver =>
            .records receiver
              ⟨globalId, span.context, c.buffer.validBytes.slice span.start span.stop⟩ := by
  intro sys index
  let registered := ({ session } : System).run (first ++ [.register device globalId context])
  have hregistered : registered =
      (({ session } : System).run first).register device globalId context := by
    show ({ session } : System).run (first ++ [_]) = _
    rw [run_concat]
    exact if_pos hheld
  have hnew : registered.tracer? index = some { device, globalId, context } := by
    rw [hregistered]
    exact tracer?_register.mpr (.inr ⟨rfl, rfl⟩)
  have hlength : registered.tracers.length = index + 1 := by
    rw [hregistered]
    exact List.length_append
  have hentry : registered.session.devices[device]? = some ⟨globalId, context, none⟩ := by
    rw [hregistered]
    exact Std.TreeMap.getElem?_insert_self
  have hrun (ops : List Operation) : registered.run ops =
      ({ session } : System).run (first ++ .register device globalId context :: ops) := by
    rw [← run_append, List.append_assoc]
    rfl
  have hactive : t.state.isActive = true := by rw [hstarted]; rfl
  obtain ⟨before, source, callback, after, hrest, hafter, holder, hdevice⟩ :=
    entry_of_latest hnew rfl hlength hentry rest hlatest (hrun rest ▸ ht) hactive
  simp only [hrun] at holder hdevice
  have hdelivering := (delivering_run hbuild hwilling hidle _).mpr ⟨index, t, ht, hstarted⟩
  refine ⟨before, source, callback, after, hrest, hafter, holder,
    fun huntouched => receiver?_of_untouched huntouched _, fun c => ?_⟩
  obtain ⟨told, ended, hjournal, htold, hended⟩ := sys.session.journal_takeBack c
  refine ⟨told, ended, ?_, fun e he => (List.mem_append.mp he).elim (htold e) (hended e),
    fun span hspan => ?_⟩
  · unfold takeBackThroughClient Session.takeBackThroughClient
    rw [if_pos (alive_of_tracer? ht), if_pos hdelivering, Session.filterMap_spanEvent?]
    exact hjournal
  · subst hspan
    rw [Session.spanEvent?_of_entry hdevice]

/-- The newest trace of a device is running, and a record of the device that comes back then gets
lost, because an older trace of the same id has been stopped. -/
theorem latest_loses_callback :
    let session : Session := { config := {}, monitor := { gateway := { client := .willing } } }
    let sys := ({ session } : System).run [.register 0 0 ⟨1⟩, .start 0 .session 0,
      .register 0 0 ⟨1⟩, .start 1 .session 1, .stop 0]
    let completion : Completion := ⟨⟨1⟩, 0, ⟨[2, 0, 0, 0, 8, 0, 0, 0], 8⟩⟩
    Session.build {} .willing = .ok session ∧ (sys.tracer? 1).map Tracer.state = some .started ∧
      (spans completion.buffer.validBytes).map Span.device = [0] ∧
      (sys.takeBackThroughClient completion).session.gateway.journal.filterMap
        (Event.batch? 1) = [] := by
  refine ⟨rfl, ?_⟩
  decide +kernel

/-- An older trace of the same id is started again, and gets what the newest one should get. -/
theorem receiver_of_latest_replaced :
    let session : Session := { config := {}, monitor := { gateway := { client := .willing } } }
    let sys := ({ session } : System).run [.register 0 0 ⟨1⟩, .start 0 .session 0,
      .register 0 0 ⟨1⟩, .start 1 .session 1, .start 0 .session 2]
    Session.build {} .willing = .ok session ∧ ∀ (c : Completion) (span : Span), span.device = 0 →
      sys.session.spanEvent? c.buffer.validBytes span = some (.records 2
        ⟨0, span.context, c.buffer.validBytes.slice span.start span.stop⟩) := by
  intro session sys
  have hbuild : Session.build {} .willing = .ok session := rfl
  refine ⟨hbuild, fun c span hspan => ?_⟩
  have ht : sys.tracer? 1 =
      some { device := 0, globalId := 0, context := ⟨1⟩, state := .started } := by
    decide +kernel
  obtain ⟨before, source, callback, after, hrest, -, -, -, hevents⟩ :=
    receiver_of_latest hbuild (fun _ _ => rfl) rfl [.register 0 0 ⟨1⟩, .start 0 .session 0]
      [.start 1 .session 1, .start 0 .session 2] 0 0 ⟨1⟩ rfl (by simp) ht rfl
  obtain ⟨-, -, -, -, hevent⟩ := hevents c
  have hindex : (({ session } : System).run
      [.register 0 0 ⟨1⟩, .start 0 .session 0]).tracers.length = 1 := rfl
  rw [hindex] at hrest
  obtain rfl : before = [] := by
    cases before with
    | nil => rfl
    | cons op before => cases before <;> simp at hrest
  obtain ⟨⟨rfl, rfl⟩, rfl⟩ :
      (source = .session ∧ callback = 1) ∧ after = [.start 0 .session 2] := by
    simpa [eq_comm] using hrest
  refine (hevent span hspan).trans ?_
  have hreceiver : (({ session } : System).run [.register 0 0 ⟨1⟩, .start 0 .session 0,
      .register 0 0 ⟨1⟩, .start 1 .session 1]).receiver? 0 (some 1) [.start 0 .session 2] =
      some 2 := by
    decide +kernel
  exact congrArg _ hreceiver

end System
end DeviceTrace
