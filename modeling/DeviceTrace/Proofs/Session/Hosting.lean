import DeviceTrace.Proofs.Session.Tracers

/-!
# Devices and their callbacks

When no relative id is registered twice, each tracer has its device to itself. The session then
holds, for the device of each tracer, the callback that the tracer got last, as long as the trace is
active: pausing a trace leaves its callback in place, and only stopping it takes it away.
-/

namespace DeviceTrace

/-- The callback that an operation gives to the trace of this tracer. -/
def Operation.callback? (index : Nat) : Operation → Option Nat
  | .start i _ callback => if i = index then some callback else none
  | _ => none

/-- The callback that a tracer was given last. -/
def lastCallback? (index : Nat) (ops : List Operation) : Option Nat :=
  (ops.filterMap (Operation.callback? index)).getLast?

theorem lastCallback?_concat (index : Nat) (ops : List Operation) (op : Operation) :
    lastCallback? index (ops ++ [op]) = (op.callback? index).or (lastCallback? index ops) := by
  unfold lastCallback?
  rw [List.filterMap_append, List.getLast?_append]
  cases hop : op.callback? index <;> simp [hop]

namespace Session

variable {s s' : Session}

theorem devices_setCallback (s : Session) (id : DeviceId) (callback : Option Nat) (d : DeviceId) :
    (s.setCallback id callback).devices[d]? =
      if d = id then s.devices[id]?.map ({ · with callback }) else s.devices[d]? := by
  show (s.devices.modify id _)[d]? = _
  rw [Std.TreeMap.getElem?_modify]
  by_cases hd : d = id
  · simp [hd]
  · have hne : compare id d ≠ .eq := fun h => hd (Std.LawfulEqCmp.eq_of_compare h).symm
    rw [if_neg hne, if_neg hd]

theorem Quiets.devices_eq (h : s.Quiets s') : s'.devices = s.devices := by
  rw [h.frame.2]

end Session

namespace Tracer

theorem devices_suspend (t : Tracer) (s : Session) : (t.suspend s).2.devices = s.devices := by
  rw [suspend_eq, (t.quieted s).counts_closeDelivery.devices_eq, (t.quiets_quieted s).devices_eq]

theorem devices_retire (t : Tracer) (s : Session) :
    (t.retire s).2.devices = (s.setCallback t.device none).devices :=
  ((s.forgetKinds t.context).setCallback t.device none).counts_removeTrace.devices_eq

theorem prepare_same (t : Tracer) :
    t.Same t.prepare.2 ∧ t.prepare.2.state.isActive = t.state.isActive := by
  unfold prepare
  cases hstate : t.state <;> exact ⟨⟨rfl, rfl, rfl⟩, by simp [hstate, TraceState.isActive]⟩

theorem pause_same (t : Tracer) (s : Session) (begin : Bool) :
    t.Same (t.pause s begin).2.1 ∧ (t.pause s begin).2.1.state.isActive = t.state.isActive ∧
      (t.pause s begin).2.2.devices = s.devices := by
  unfold pause
  split
  · rename_i hstate
    exact ⟨⟨rfl, rfl, rfl⟩, by rw [hstate]; rfl, t.devices_suspend s⟩
  · rename_i hstate
    exact ⟨⟨rfl, rfl, rfl⟩, by rw [hstate]; rfl, rfl⟩
  · exact ⟨⟨rfl, rfl, rfl⟩, rfl, rfl⟩

theorem stop_same (t : Tracer) (s : Session) :
    t.Same (t.stop s).1 ∧ (t.stop s).2.devices =
      if t.state.isActive then (s.setCallback t.device none).devices else s.devices := by
  unfold stop
  cases hstate : t.state with
  | started =>
    refine ⟨⟨rfl, rfl, rfl⟩, ?_⟩
    show ((t.suspend s).1.retire (t.suspend s).2).2.devices = _
    rw [devices_retire]
    show (t.suspend s).2.devices.modify t.device _ = s.devices.modify t.device _
    rw [devices_suspend]
  | paused => exact ⟨⟨rfl, rfl, rfl⟩, t.devices_retire s⟩
  | uninitialized | initialized | stopped => exact ⟨⟨rfl, rfl, rfl⟩, rfl⟩

theorem start_same (t : Tracer) (s : Session) (source : BufferSource) (callback : Nat) :
    t.Same (t.start s source callback).2.1 ∧
      (t.start s source callback).2.1.state.isActive = (t.state != .stopped) ∧
      (t.start s source callback).2.2.devices =
        if t.state = .stopped then s.devices
        else (s.setCallback t.device (some callback)).devices := by
  rw [start_eq]
  cases hstate : t.state with
  | uninitialized | initialized =>
    exact ⟨⟨rfl, rfl, rfl⟩, rfl, (Session.counts_addTrace _).devices_eq⟩
  | paused => exact ⟨⟨rfl, rfl, rfl⟩, rfl, rfl⟩
  | started | stopped => exact ⟨⟨rfl, rfl, rfl⟩, by rw [hstate]; rfl, rfl⟩

end Tracer

/-- The callback that the session holds for a tracer in this state. -/
def heldCallback? (index : Nat) (ops : List Operation) (state : TraceState) : Option Nat :=
  if state.isActive then lastCallback? index ops else none

namespace System

variable {ops : List Operation} {sys : System}

/-- After these operations the callbacks of the devices are those of the active traces. -/
structure Hosted (ops : List Operation) (sys : System) : Prop where
  given : ∀ index t, sys.tracer? index = some t → t.state.isActive →
    (lastCallback? index ops).isSome
  entry : ∀ index t, sys.tracer? index = some t → sys.session.devices[t.device]? =
    some ⟨t.globalId, t.context, heldCallback? index ops t.state⟩
  owner : ∀ d device, sys.session.devices[d]? = some device → device.callback.isSome →
    ∃ index t, sys.tracer? index = some t ∧ t.device = d

namespace Hosted

theorem lastCallback?_same {index : Nat} {op : Operation} (hop : op.callback? index = none) :
    lastCallback? index (ops ++ [op]) = lastCallback? index ops := by
  rw [lastCallback?_concat, hop, Option.none_or]

/-- An operation that changes neither the devices nor the tracers, and gives no tracer a callback.
-/
theorem same (h : Hosted ops sys) {op : Operation} {sys' : System}
    (hcallback : ∀ index t, sys.tracer? index = some t → op.callback? index = none)
    (htracers : sys'.tracers = sys.tracers)
    (hdevices : sys'.session.devices = sys.session.devices) : Hosted (ops ++ [op]) sys' := by
  have htracer (index : Nat) : sys'.tracer? index = sys.tracer? index := by
    rw [tracer?, htracers, tracer?]
  refine ⟨?_, ?_, ?_⟩ <;> simp only [htracer, hdevices]
  · intro index t ht hactive
    rw [lastCallback?_same (hcallback index t ht)]
    exact h.given index t ht hactive
  · intro index t ht
    rw [heldCallback?, lastCallback?_same (hcallback index t ht)]
    exact h.entry index t ht
  · exact h.owner

/-- An operation of one tracer, which leaves its device with the callback of its new state. -/
theorem withTracer (h : Hosted ops sys) {listed : List DeviceId}
    (happart : Apart Tracer.device listed sys) {op : Operation} {index : Nat} {t t' : Tracer}
    {s' : Session} (ht : sys.tracer? index = some t) (hsame : t.Same t')
    (hcallback : ∀ j, j ≠ index → op.callback? j = none)
    (hgiven : t'.state.isActive → (lastCallback? index (ops ++ [op])).isSome)
    (hdevices : ∀ d, s'.devices[d]? = if d = t.device then
        some ⟨t.globalId, t.context, heldCallback? index (ops ++ [op]) t'.state⟩
      else sys.session.devices[d]?) : Hosted (ops ++ [op]) (sys.withTracer index t' s') := by
  have hold {j : Nat} {u : Tracer} (hu : (sys.withTracer index t' s').tracer? j = some u) :
      (j = index ∧ u = t') ∨ (j ≠ index ∧ sys.tracer? j = some u) := by
    rw [tracer?_withTracer ht] at hu
    split at hu
    · rename_i heq
      exact .inl ⟨heq.symm, (Option.some.inj hu).symm⟩
    · rename_i hne
      exact .inr ⟨fun heq => hne heq.symm, hu⟩
  refine ⟨?given, ?entry, ?owner⟩
  case given =>
    intro j u hu hactive
    rcases hold hu with ⟨rfl, rfl⟩ | ⟨hne, hu⟩
    · exact hgiven hactive
    · rw [lastCallback?_same (hcallback j hne)]
      exact h.given j u hu hactive
  case entry =>
    intro j u hu
    show s'.devices[u.device]? = _
    rw [hdevices]
    rcases hold hu with ⟨rfl, rfl⟩ | ⟨hne, hu⟩
    · rw [if_pos hsame.device, hsame.globalId, hsame.context]
    · have hapart : u.device ≠ t.device := fun heq => hne (happart.eq j index u t hu ht heq)
      rw [if_neg hapart, heldCallback?, lastCallback?_same (hcallback j hne)]
      exact h.entry j u hu
  case owner =>
    intro d device hdevice hsome
    have hnew : (sys.withTracer index t' s').tracer? index = some t' := by
      rw [tracer?_withTracer ht, if_pos rfl]
    have hdevice' : s'.devices[d]? = some device := hdevice
    rw [hdevices] at hdevice'
    split at hdevice'
    · rename_i heq
      exact ⟨index, t', hnew, hsame.device.trans heq.symm⟩
    · rename_i hne
      obtain ⟨j, u, hu, rfl⟩ := h.owner d device hdevice' hsome
      have hji : index ≠ j := by
        rintro rfl
        rw [ht] at hu
        cases hu
        exact hne rfl
      refine ⟨j, u, ?_, rfl⟩
      rw [tracer?_withTracer ht, if_neg hji]
      exact hu

theorem devices_setCallback (h : Hosted ops sys) {index : Nat} {t : Tracer}
    (ht : sys.tracer? index = some t) (callback : Option Nat) (d : DeviceId) :
    (sys.session.setCallback t.device callback).devices[d]? =
      if d = t.device then some ⟨t.globalId, t.context, callback⟩
      else sys.session.devices[d]? := by
  rw [Session.devices_setCallback, h.entry index t ht]
  rfl

section Commands

variable (h : Hosted ops sys) {listed : List DeviceId} (happart : Apart Tracer.device listed sys)
  {op : Operation} {index : Nat} {t : Tracer} (ht : sys.tracer? index = some t)

include h happart ht

/-- An operation by which a tracer stays as active as it was, and which gives no callback. -/
theorem keep {t' : Tracer} {s' : Session} (hsame : t.Same t')
    (hactive : t'.state.isActive = t.state.isActive) (hdevices : s'.devices = sys.session.devices)
    (hcallback : ∀ j, op.callback? j = none) :
    Hosted (ops ++ [op]) (sys.withTracer index t' s') := by
  refine h.withTracer happart ht hsame (fun j _ => hcallback j) ?_ fun d => ?_
  · rw [hactive, lastCallback?_same (hcallback index)]
    exact h.given index t ht
  · rw [hdevices, heldCallback?, hactive, lastCallback?_same (hcallback index)]
    by_cases hd : d = t.device
    · rw [if_pos hd, hd]
      exact h.entry index t ht
    · rw [if_neg hd]

theorem stop (hcallback : ∀ j, op.callback? j = none) : Hosted (ops ++ [op])
    (sys.withTracer index (t.stop sys.session).1 (t.stop sys.session).2) := by
  obtain ⟨hsame, hdevices⟩ := t.stop_same sys.session
  have hinactive := t.isActive_stop sys.session
  cases hactive : t.state.isActive with
  | false =>
    rw [hactive] at hdevices
    exact h.keep happart ht hsame (hinactive.trans hactive.symm) hdevices hcallback
  | true =>
    rw [hactive, if_pos rfl] at hdevices
    refine h.withTracer happart ht hsame (fun j _ => hcallback j) ?_ fun d => ?_
    · rw [hinactive]
      exact fun hfalse => absurd hfalse Bool.false_ne_true
    · rw [hdevices, h.devices_setCallback ht, heldCallback?, hinactive]
      rfl

theorem start (source : BufferSource) (callback : Nat) :
    Hosted (ops ++ [.start index source callback])
      (sys.withTracer index (t.start sys.session source callback).2.1
        (t.start sys.session source callback).2.2) := by
  obtain ⟨hsame, hactive, hdevices⟩ := t.start_same sys.session source callback
  have hlast : lastCallback? index (ops ++ [.start index source callback]) = some callback := by
    rw [lastCallback?_concat, Operation.callback?, if_pos rfl, Option.some_or]
  refine h.withTracer happart ht hsame (fun j hne => if_neg hne.symm) ?_ fun d => ?_
  · rw [hlast]
    exact fun _ => rfl
  · rw [hdevices, heldCallback?, hactive, hlast]
    by_cases hstopped : t.state = .stopped
    · rw [if_pos hstopped, hstopped]
      by_cases hd : d = t.device
      · rw [if_pos hd, hd, h.entry index t ht, hstopped]
        rfl
      · rw [if_neg hd]
    · rw [if_neg hstopped, h.devices_setCallback ht, if_pos (bne_iff_ne.mpr hstopped)]

end Commands

theorem lapse (h : Hosted ops sys) {index : Nat} {t : Tracer} (ht : sys.tracer? index = some t)
    (hinactive : t.state.isActive = false) :
    Hosted ops { sys with tracers := sys.tracers.set index none } := by
  refine ⟨fun j u hu => h.given j u (tracer?_lapse.mp hu).2,
    fun j u hu => h.entry j u (tracer?_lapse.mp hu).2, ?owner⟩
  case owner =>
    intro d device hdevice hsome
    obtain ⟨j, u, hu, rfl⟩ := h.owner d device hdevice hsome
    have hne : index ≠ j := by
      rintro rfl
      rw [ht] at hu
      cases hu
      have hentry := (h.entry index t ht).symm.trans hdevice
      rw [heldCallback?, hinactive] at hentry
      cases hentry
      cases hsome
    exact ⟨j, u, tracer?_lapse.mpr ⟨hne, hu⟩, rfl⟩

theorem register (h : Hosted ops sys) {listed : List DeviceId}
    (happart : Apart Tracer.device listed sys) {device : DeviceId} (globalId : Int32)
    (context : ContextHandle) (hnew : device ∉ listed) :
    Hosted (ops ++ [.register device globalId context])
      (sys.register device globalId context) := by
  have hdevices (d : DeviceId) : (sys.register device globalId context).session.devices[d]? =
      if d = device then some ⟨globalId, context, none⟩ else sys.session.devices[d]? := by
    show (sys.session.devices.insert device _)[d]? = _
    rw [Std.TreeMap.getElem?_insert]
    by_cases hd : d = device
    · simp [hd]
    · have hne : compare device d ≠ .eq := fun heq => hd (Std.LawfulEqCmp.eq_of_compare heq).symm
      rw [if_neg hne, if_neg hd]
  refine ⟨?given, ?entry, ?owner⟩
  case given =>
    intro j u hu hactive
    rcases tracer?_register.mp hu with hu | ⟨-, rfl⟩
    · rw [lastCallback?_same rfl]
      exact h.given j u hu hactive
    · cases hactive
  case entry =>
    intro j u hu
    rw [hdevices]
    rcases tracer?_register.mp hu with hu | ⟨-, rfl⟩
    · have hne : u.device ≠ device := fun heq => hnew (heq ▸ happart.mem j u hu)
      rw [if_neg hne, heldCallback?, lastCallback?_same rfl]
      exact h.entry j u hu
    · rw [if_pos rfl]
      rfl
  case owner =>
    intro d entry hentry hsome
    rw [hdevices] at hentry
    split at hentry
    · cases hentry
      cases hsome
    · obtain ⟨j, u, hu, rfl⟩ := h.owner d entry hentry hsome
      exact ⟨j, u, tracer?_register.mpr (.inl hu), rfl⟩

/-- Every operation keeps the callbacks, as long as no relative id is registered again. -/
theorem step (h : Hosted ops sys) (happart : Apart Tracer.device (devicesOf ops) sys)
    (op : Operation) (honce : (devicesOf (ops ++ [op])).Nodup) :
    Hosted (ops ++ [op]) (sys.step op) := by
  have hcommand {index : Nat} {operation : Tracer → Session → Bool × Tracer × Session}
      (hcallback : ∀ j, j ≠ index → op.callback? j = none)
      (hsome : ∀ t, sys.tracer? index = some t → Hosted (ops ++ [op])
        (sys.withTracer index (operation t sys.session).2.1 (operation t sys.session).2.2)) :
      Hosted (ops ++ [op]) (sys.command index operation).2 := by
    cases ht : sys.tracer? index with
    | none =>
      rw [command_none ht]
      refine h.same (fun j u hu => hcallback j ?_) rfl rfl
      rintro rfl
      rw [ht] at hu
      cases hu
    | some t =>
      rw [command_some ht]
      exact hsome t ht
  by_cases hquiet : op.isQuiet
  · obtain ⟨s', hs', hstep⟩ := sys.step_quiet hquiet
    have hcallback (index : Nat) : op.callback? index = none := by
      cases op <;> first | rfl | cases hquiet
    rw [hstep]
    exact h.same (fun index _ _ => hcallback index) rfl hs'.devices_eq
  · cases op with
    | register device globalId context =>
      have hnew : device ∉ devicesOf ops := by
        rw [devicesOf, List.filterMap_append, List.map_append] at honce
        exact fun hmem => (List.nodup_append.mp honce).2.2 _ hmem _ (List.mem_singleton.mpr rfl) rfl
      dsimp only [System.step, perform]
      split
      · exact h.register happart globalId context hnew
      · exact h.same (fun _ _ _ => rfl) rfl rfl
    | forget context =>
      dsimp only [System.step, perform, owned]
      split <;> exact h.same (fun _ _ _ => rfl) rfl rfl
    | prepare index =>
      refine hcommand (fun _ _ => rfl) fun t ht => ?_
      exact h.keep happart ht t.prepare_same.1 t.prepare_same.2 rfl fun _ => rfl
    | start index source callback =>
      exact hcommand (fun j hne => if_neg hne.symm) fun t ht => h.start happart ht source callback
    | pause index begin =>
      refine hcommand (fun _ _ => rfl) fun t ht => ?_
      obtain ⟨hsame, hactive, hdevices⟩ := t.pause_same sys.session begin
      exact h.keep happart ht hsame hactive hdevices fun _ => rfl
    | stop index => exact hcommand (fun _ _ => rfl) fun t ht => h.stop happart ht fun _ => rfl
    | drop index =>
      show Hosted _ (sys.dropTracer index).2
      have hsame : Hosted (ops ++ [.drop index]) sys := h.same (fun _ _ _ => rfl) rfl rfl
      cases ht : sys.tracer? index with
      | none =>
        unfold dropTracer
        rw [ht]
        exact hsame
      | some t =>
        obtain ⟨sys', t', hsys', hget, hinactive, hdrop⟩ := dropTracer_lapses ht
        have hstop : Hosted (ops ++ [.drop index]) sys' := by
          rcases hsys' with rfl | rfl
          · exact hsame
          · exact h.stop happart ht fun _ => rfl
        rw [hdrop]
        exact hstop.lapse hget hinactive
    | release => exact h.same (fun _ _ _ => rfl) rfl rfl
    | _ => exact absurd rfl hquiet

end Hosted

theorem hosted_run (hnone : sys.tracers = []) (hempty : sys.session.devices = {})
    (ops : List Operation) (honce : (devicesOf ops).Nodup) : Hosted ops (sys.run ops) := by
  induction ops using List.reverseRecOn with
  | nil =>
    have htracer (index : Nat) : sys.tracer? index = none := by simp [tracer?, hnone]
    refine ⟨?_, ?_, ?_⟩ <;> simp [run_nil, htracer, hempty]
  | append_singleton ops op ih =>
    have hbefore : (devicesOf ops).Nodup := by
      rw [devicesOf, List.filterMap_append, List.map_append] at honce
      exact (List.nodup_append.mp honce).1
    rw [run_concat]
    exact (ih hbefore).step (apart_run (fun _ _ hsame => hsame.device) hnone ops hbefore) op honce

end System
end DeviceTrace
