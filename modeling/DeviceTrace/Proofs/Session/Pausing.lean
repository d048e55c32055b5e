import DeviceTrace.Proofs.Session.Balance
import DeviceTrace.Proofs.Session.Delivery
import DeviceTrace.Proofs.Session.Hosting

/-!
# What a paused trace still receives

The client has one pair of callbacks for all traces of a session, and it keeps them until the last
running trace is paused. A paused trace leaves its own callback with the session. So it receives
nothing while no trace runs, but while another one does, it receives its records as before.
-/

namespace DeviceTrace

/-- The batch that an event hands to this callback. -/
def Event.batch? (callback : Nat) : Event → Option RecordBatch
  | .records receiver batch => if receiver = callback then some batch else none
  | _ => none

/-- An event that tells of lost records, of a failure or of a call hands out no batch. -/
theorem batch?_of_told {callback : Nat} {e : Event}
    (h : ∀ receiver batch, e ≠ .records receiver batch) :
    e.batch? callback = none := by
  cases e with
  | records receiver batch => exact absurd rfl (h receiver batch)
  | _ => rfl

theorem foldl_installed? (calls : List ClientCall) (delivering : Bool) :
    calls.foldl (fun d call => call.installed?.getD d) delivering =
      (lastInstalled? calls).getD delivering := by
  induction calls generalizing delivering with
  | nil => rfl
  | cons call calls ih =>
    rw [List.foldl_cons, ih]
    unfold lastInstalled?
    cases hcall : call.installed? with
    | none => rw [List.filterMap_cons_none hcall, Option.getD_none]
    | some enabled =>
      rw [List.filterMap_cons_some hcall, List.getLast?_cons, Option.getD_some, Option.getD_some]

namespace System

variable {config : SessionConfig} {client : DeviceClient} {session : Session}

/-- A willing client delivers exactly while some trace is running. -/
theorem delivering_run (hbuild : Session.build config client = .ok session)
    (hwilling : client.Willing) (hidle : client.delivering = false) (ops : List Operation) :
    (({ session } : System).run ops).session.gateway.client.delivering = true ↔
      ∃ index t, (({ session } : System).run ops).tracer? index = some t ∧ t.state = .started := by
  have hbalanced := balanced_run (balanced_of_build hbuild) ops
  have hinstalled := hbalanced.booked.installed
  rw [hbalanced.started, tracersIn_pos] at hinstalled
  have hstarted (st : TraceState) : st.isStarted = true ↔ st = .started := by cases st <;> decide
  simp only [hstarted] at hinstalled
  rw [← hinstalled]
  obtain ⟨calls, hcalls⟩ := run_makes { session } ops
  rw [build_eq hbuild] at hcalls ⊢
  rw [(hcalls.client_eq hwilling).1, hcalls.calls_eq, foldl_installed?]
  show (lastInstalled? calls).getD client.delivering = true ↔ _
  rw [hidle]
  show _ ↔ lastInstalled? ([] ++ calls) = some true
  rw [List.nil_append]
  cases lastInstalled? calls <;> simp

variable {ops : List Operation} {sys : System} {index callback : Nat} {t : Tracer}

/-- A segment reaches the callback of an active trace if and only if it is of the trace's device. -/
theorem Hosted.batch?_segmentEvent? (h : Hosted ops sys) (ht : sys.tracer? index = some t)
    (hheld : heldCallback? index ops t.state = some callback)
    (hown : ∀ j, j ≠ index → lastCallback? j ops ≠ some callback) (segment : List RecordView) :
    (sys.session.segmentEvent? segment).bind (Event.batch? callback) =
      if markedDevice (segmentMark segment) = t.device then
        some ⟨t.globalId, markedContext (segmentMark segment), segmentBytes segment⟩
      else none := by
  unfold Session.segmentEvent?
  by_cases hdevice : markedDevice (segmentMark segment) = t.device
  · rw [if_pos hdevice, hdevice, h.entry index t ht, hheld]
    simp [Event.batch?]
  · rw [if_neg hdevice]
    cases hentry : sys.session.devices[markedDevice (segmentMark segment)]? with
    | none => rfl
    | some device =>
      cases hcallback : device.callback with
      | none => simp [hcallback]
      | some other =>
        -- the device is that of another active trace, which has another callback
        obtain ⟨j, u, hu, hju⟩ := h.owner _ device hentry (by rw [hcallback]; rfl)
        have hne : j ≠ index := by
          rintro rfl
          rw [ht] at hu
          cases hu
          exact hdevice hju.symm
        have hother : heldCallback? j ops u.state = some other := by
          rw [← hju, h.entry j u hu] at hentry
          cases hentry
          exact hcallback
        have hlast : lastCallback? j ops = some other := by
          unfold heldCallback? at hother
          split at hother
          · exact hother
          · cases hother
        have hapart : other ≠ callback := by
          rintro rfl
          exact hown j hne hlast
        simp [hcallback, Event.batch?, hapart]

/-- What the callback of an active trace gets from a buffer that is taken back. -/
theorem Hosted.batches_takeBack (h : Hosted ops sys) (ht : sys.tracer? index = some t)
    (hheld : heldCallback? index ops t.state = some callback)
    (hown : ∀ j, j ≠ index → lastCallback? j ops ≠ some callback) (c : Completion) :
    ∃ events, (sys.session.takeBack c).gateway.journal = sys.session.gateway.journal ++ events ∧
      events.filterMap (Event.batch? callback) =
        ((segments (records c.buffer.validBytes)).filter fun segment =>
          markedDevice (segmentMark segment) = t.device).map fun segment =>
            ⟨t.globalId, markedContext (segmentMark segment), segmentBytes segment⟩ := by
  obtain ⟨told, ended, hjournal, htold, hended⟩ := sys.session.journal_takeBack c
  refine ⟨_, hjournal, ?_⟩
  rw [List.filterMap_append, List.filterMap_append, List.filterMap_filterMap,
    List.filterMap_eq_nil_iff.mpr fun e he => batch?_of_told (htold e he),
    List.filterMap_eq_nil_iff.mpr fun e he => batch?_of_told (hended e he),
    List.nil_append, List.append_nil, ← List.filterMap_eq_map, List.filterMap_filter]
  apply List.filterMap_congr
  intro segment _
  rw [h.batch?_segmentEvent? ht hheld hown segment]
  by_cases hdevice : markedDevice (segmentMark segment) = t.device <;> simp [hdevice]

/-- As long as the client refuses nothing and no relative id is registered twice: a paused trace
still has the callback it was given last. A buffer completed through the callbacks of the client
does nothing while no trace is running. While some trace is, the callback gets each segment of the
paused trace's device, and nothing else. -/
theorem batches_of_paused (hbuild : Session.build config client = .ok session)
    (hwilling : client.Willing) (hidle : client.delivering = false) (ops : List Operation)
    (honce : (devicesOf ops).Nodup) {index : Nat} {t : Tracer}
    (ht : (({ session } : System).run ops).tracer? index = some t) (hpaused : t.state = .paused) :
    let sys := ({ session } : System).run ops
    ∃ callback, lastCallback? index ops = some callback ∧ ∀ c : Completion,
      ((∀ j u, sys.tracer? j = some u → u.state ≠ .started) → sys.takeBackThroughClient c = sys) ∧
      ((∃ j u, sys.tracer? j = some u ∧ u.state = .started) →
        (∀ j, j ≠ index → lastCallback? j ops ≠ some callback) →
        ∃ events, (sys.takeBackThroughClient c).session.gateway.journal =
            sys.session.gateway.journal ++ events ∧
          events.filterMap (Event.batch? callback) =
            ((segments (records c.buffer.validBytes)).filter fun segment =>
              markedDevice (segmentMark segment) = t.device).map fun segment =>
                ⟨t.globalId, markedContext (segmentMark segment), segmentBytes segment⟩) := by
  intro sys
  have hdelivering := delivering_run hbuild hwilling hidle ops
  have hhosted : Hosted ops sys := by
    refine hosted_run rfl ?_ ops honce
    rw [build_eq hbuild]
  have hactive : t.state.isActive = true := by rw [hpaused]; rfl
  obtain ⟨callback, hlast⟩ := Option.isSome_iff_exists.mp (hhosted.given index t ht hactive)
  have hheld : heldCallback? index ops t.state = some callback := by
    rw [heldCallback?, if_pos hactive, hlast]
  have halive : sys.alive = true := by
    have hmem : some t ∈ sys.tracers := List.mem_of_getElem? (tracer?_eq_some.mp ht)
    simp only [alive, Bool.or_eq_true, List.any_eq_true]
    exact .inr ⟨some t, hmem, rfl⟩
  refine ⟨callback, hlast, fun c => ⟨fun hnone => ?_, fun hsome hown => ?_⟩⟩
  · have hidle : sys.session.gateway.client.delivering = false := by
      rw [Bool.eq_false_iff]
      intro hdelivers
      obtain ⟨j, u, hu, hstarted⟩ := hdelivering.mp hdelivers
      exact hnone j u hu hstarted
    unfold takeBackThroughClient Session.takeBackThroughClient
    rw [if_pos halive, hidle]
    rfl
  · have hdelivers := hdelivering.mpr hsome
    obtain ⟨events, hjournal, hbatches⟩ := hhosted.batches_takeBack ht hheld hown c
    refine ⟨events, ?_, hbatches⟩
    unfold takeBackThroughClient Session.takeBackThroughClient
    rw [if_pos halive, if_pos hdelivers]
    exact hjournal

/-- Of two running traces the first is paused, and it gets the record of its device that comes back
then. -/
theorem paused_receives_beside_running :
    let session : Session := { config := {}, monitor := { gateway := { client := .willing } } }
    let sys := ({ session } : System).run [.register 0 0 ⟨1⟩, .register 1 1 ⟨2⟩,
      .start 0 .session 0, .start 1 .session 1, .pause 0 true]
    Session.build {} .willing = .ok session ∧ (sys.tracer? 0).map Tracer.state = some .paused ∧
      .records 0 ⟨0, 0, [2, 0, 0, 0, 8, 0, 0, 0]⟩ ∉ sys.session.gateway.journal ∧
      .records 0 ⟨0, 0, [2, 0, 0, 0, 8, 0, 0, 0]⟩ ∈ (sys.takeBackThroughClient
        ⟨⟨1⟩, 0, ⟨[2, 0, 0, 0, 8, 0, 0, 0], 8⟩⟩).session.gateway.journal := by
  refine ⟨rfl, ?_⟩
  decide +kernel

theorem batches_of_paused_beside_running :
    ∃ session : Session, Session.build {} .willing = .ok session ∧
      let sys := ({ session } : System).run [.register 0 0 ⟨1⟩, .register 1 1 ⟨2⟩,
        .start 0 .session 0, .start 1 .session 1, .pause 0 true]
      ∃ events, (sys.takeBackThroughClient
            ⟨⟨1⟩, 0, ⟨[2, 0, 0, 0, 8, 0, 0, 0], 8⟩⟩).session.gateway.journal =
          sys.session.gateway.journal ++ events ∧
        events.filterMap (Event.batch? 0) = [⟨0, 0, [2, 0, 0, 0, 8, 0, 0, 0]⟩] := by
  obtain ⟨session, hbuild⟩ : ∃ session, Session.build {} .willing = .ok session := ⟨_, rfl⟩
  refine ⟨session, hbuild, ?_⟩
  have hpaused : (({ session } : System).run [.register 0 0 ⟨1⟩, .register 1 1 ⟨2⟩,
      .start 0 .session 0, .start 1 .session 1, .pause 0 true]).tracer? 0 =
      some { device := 0, globalId := 0, context := ⟨1⟩, state := .paused } := by
    rw [build_eq hbuild]
    decide +kernel
  have hrunning : (({ session } : System).run [.register 0 0 ⟨1⟩, .register 1 1 ⟨2⟩,
      .start 0 .session 0, .start 1 .session 1, .pause 0 true]).tracer? 1 =
      some { device := 1, globalId := 1, context := ⟨2⟩, state := .started } := by
    rw [build_eq hbuild]
    decide +kernel
  obtain ⟨callback, hlast, hbatches⟩ :=
    batches_of_paused hbuild (fun _ _ => rfl) rfl _ (by decide) hpaused rfl
  obtain rfl : callback = 0 := Option.some.inj (hlast.symm.trans (by decide))
  have hown (j : Nat) (hne : j ≠ 0) : lastCallback? j [.register 0 0 ⟨1⟩, .register 1 1 ⟨2⟩,
      .start 0 .session 0, .start 1 .session 1, .pause 0 true] ≠ some 0 := by
    match j with
    | 0 => exact absurd rfl hne
    | 1 => decide
    | j + 2 => simp [lastCallback?, List.findSome?, Operation.callback?]
  obtain ⟨events, hjournal, hevents⟩ :=
    (hbatches ⟨⟨1⟩, 0, ⟨[2, 0, 0, 0, 8, 0, 0, 0], 8⟩⟩).2 ⟨1, _, hrunning, rfl⟩ hown
  refine ⟨events, hjournal, hevents.trans ?_⟩
  decide +kernel

end System
end DeviceTrace
