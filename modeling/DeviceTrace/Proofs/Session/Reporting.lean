import DeviceTrace.Proofs.Session.Balance
import DeviceTrace.Proofs.Session.Delivery

/-!
# What the error handler is told

What a session does to its client falls into turns. Each turn is one call, which is reported if the
client refuses it. With the call for the number of lost records a buffer is taken back, and what is
wrong with the buffer is reported in the same turn. The reports of a run are those of its turns, one
turn after the other, and there is a turn for every call that the client has counted.
-/

namespace DeviceTrace

/-! ## Turns -/

/-- The name under which the error handler is told that a call was refused. -/
def ClientCall.reportName : ClientCall → String
  | enableKind .. => "enable_kind"
  | disableKind .. => "disable_kind"
  | registerCallbacks _ => "register_buffer_callbacks"
  | flushAll _ => "flush_all"
  | pushCorrelation _ => "push_external_correlation"
  | popCorrelation => "pop_external_correlation"
  | deviceTimestamp _ => "device_timestamp"
  | droppedRecordCount .. => "dropped_record_count"
  | subscribe => "subscribe"
  | unsubscribe => "unsubscribe"
  | finalize => "finalize"

/-- The gateway asks the client for each function under the name that the handler is told. -/
theorem ClientCall.function_eq (call : ClientCall) : call.function = call.reportName := by
  cases call <;> rfl

/-- A buffer that is taken back while these devices are registered. -/
structure Return where
  completion : Completion
  registered : DeviceId → Bool

namespace Return

def bytes (r : Return) : Bytes := r.completion.buffer.validBytes

/-- The call with which the buffer is taken back. -/
def call (r : Return) : ClientCall :=
  .droppedRecordCount r.completion.context r.completion.stream

/-- What is wrong with the buffer: the spans whose devices are not registered, and the corrupt
record at which the walk over the buffer ends, if it ends at one. -/
def reports (r : Return) : List ErrorReport :=
  ((spans r.bytes).filter fun span => !r.registered span.device).map (fun span =>
      ⟨.protocol, "buffer_complete", (TraceError.unknownDevice span.device).message⟩) ++
    match scanAt r.bytes (recordsEnd r.bytes).position with
    | .corrupt offset =>
      [⟨.protocol, "buffer_complete", (TraceError.corruptRecord offset).message⟩]
    | _ => []

end Return

/-- One call of the client, with what the session reports before the next call. -/
inductive Turn
  | ask (call : ClientCall)
  | takeBack (returned : Return)

namespace Turn

def call : Turn → ClientCall
  | ask call => call
  | takeBack r => r.call

def returned? : Turn → Option Return
  | ask _ => none
  | takeBack r => some r

/-- The reports of a turn whose call is refused with this text, or accepted. -/
def reports (refusal : Option String) (turn : Turn) : List ErrorReport :=
  refusal.toList.map (fun text => ⟨.deviceClient, turn.call.reportName,
      (TraceError.client turn.call.reportName text).message⟩) ++
    turn.returned?.toList.flatMap Return.reports

/-- The call and the reports of a turn, in the order in which they stand in the journal. -/
def events (refusal : Option String) (turn : Turn) : List Event :=
  .call turn.call (refusal.map (TraceError.client turn.call.reportName)) ::
    (turn.reports refusal).map .failure

end Turn

/-- The calls of the client and the reports among some events. -/
def callsAndReports (events : List Event) : List Event :=
  events.filter fun e => e.call?.isSome || e.failure?.isSome

@[simp] theorem callsAndReports_append (events more : List Event) :
    callsAndReports (events ++ more) = callsAndReports events ++ callsAndReports more :=
  List.filter_append _ _

theorem filterMap_failure?_callsAndReports (events : List Event) :
    (callsAndReports events).filterMap Event.failure? = events.filterMap Event.failure? := by
  rw [callsAndReports, List.filterMap_filter]
  refine List.filterMap_congr fun e _ => ?_
  cases e <;> rfl

theorem filterMap_failure?_events (refusal : Option String) (turn : Turn) :
    (turn.events refusal).filterMap Event.failure? = turn.reports refusal := by
  have hreports (reports : List ErrorReport) :
      (reports.map Event.failure).filterMap Event.failure? = reports := by
    rw [List.filterMap_map]
    exact List.filterMap_some
  exact hreports _

/-- Only a call that pops an id can fail without being refused. -/
theorem DeviceClient.events_answer (c : DeviceClient) {call : ClientCall}
    (hcall : call ≠ .popCorrelation) :
    call.events (c.answer call).1 = (Turn.ask call).events (c.refuses c.calls call) := by
  unfold answer
  cases c.refuses c.calls call with
  | some text =>
    rw [Turn.events, Turn.reports, Turn.call, ← call.function_eq]
    rfl
  | none => cases call <;> first | rfl | exact absurd rfl hcall

theorem DeviceClient.calls_answer (c : DeviceClient) (call : ClientCall) :
    (c.answer call).2.calls = c.calls + 1 := by
  unfold answer
  cases c.refuses c.calls call with
  | some text => rfl
  | none =>
    cases call <;> try rfl
    simp only [accept]
    split <;> rfl

namespace Gateway

variable {g g' g'' : Gateway}

/-- The second gateway comes from the first by these turns: they make up all calls and reports in
between, where the policy of the client says which calls are refused, and the client has counted
them. -/
structure Turns (g : Gateway) (turns : List Turn) (g' : Gateway) : Prop where
  told : callsAndReports g'.journal = callsAndReports g.journal ++
    (turns.zipIdx g.client.calls).flatMap fun (turn, n) =>
      turn.events (g.client.refuses n turn.call)
  calls : g'.client.calls = g.client.calls + turns.length
  refuses : g'.client.refuses = g.client.refuses

theorem Turns.trans {turns more : List Turn} (h : g.Turns turns g') (h' : g'.Turns more g'') :
    g.Turns (turns ++ more) g'' := by
  refine ⟨?told, ?calls, h'.refuses.trans h.refuses⟩
  case told =>
    rw [h'.told, h.told, h.refuses, h.calls, List.zipIdx_append, List.flatMap_append,
      List.append_assoc]
  case calls =>
    rw [h'.calls, h.calls, List.length_append, Nat.add_assoc]

/-- The second gateway comes from the first by turns in which these buffers were taken back. -/
def Accounts (g : Gateway) (returns : List Return) (g' : Gateway) : Prop :=
  ∃ turns, g.Turns turns g' ∧ turns.filterMap Turn.returned? = returns

namespace Accounts

variable {returns more : List Return}

/-- Without a turn, what is neither a call nor a report can happen, and the client can come by other
buffers, another time and another number of lost records. -/
theorem of_still (htold : callsAndReports g'.journal = callsAndReports g.journal)
    (hcalls : g'.client.calls = g.client.calls) (hrefuses : g'.client.refuses = g.client.refuses) :
    g.Accounts [] g' :=
  ⟨[], ⟨by simpa using htold, by simpa using hcalls, hrefuses⟩, rfl⟩

theorem refl (g : Gateway) : g.Accounts [] g := of_still rfl rfl rfl

theorem trans (h : g.Accounts returns g') (h' : g'.Accounts more g'') :
    g.Accounts (returns ++ more) g'' := by
  obtain ⟨turns, hturns, rfl⟩ := h
  obtain ⟨turns', hturns', rfl⟩ := h'
  exact ⟨turns ++ turns', hturns.trans hturns', List.filterMap_append⟩

theorem trans_nil (h : g.Accounts returns g') (h' : g'.Accounts [] g'') :
    g.Accounts returns g'' := by
  simpa using h.trans h'

theorem emit (g : Gateway) {events : List Event} (h : callsAndReports events = []) :
    g.Accounts [] (g.emit events) :=
  of_still (by simp [Gateway.emit, h]) rfl rfl

/-- A call makes a turn together with the events that follow it. -/
theorem of_ask (g : Gateway) (turn : Turn) (hcall : turn.call ≠ .popCorrelation)
    {events : List Event} (hevents : callsAndReports events =
      (turn.returned?.toList.flatMap Return.reports).map .failure) :
    g.Accounts turn.returned?.toList ((g.ask turn.call).2.emit events) := by
  refine ⟨[turn], ⟨?told, ?calls, ?refuses⟩, by cases turn <;> rfl⟩
  case told =>
    -- The report of a refused call is an event of the call itself.
    have hturn : (turn.events (g.client.refuses g.client.calls turn.call)) =
        turn.call.events (g.client.answer turn.call).1 ++ callsAndReports events := by
      rw [g.client.events_answer hcall, hevents]
      simp [Turn.events, Turn.reports, Turn.returned?, Turn.call]
    have hcalled : callsAndReports (turn.call.events (g.client.answer turn.call).1) =
        turn.call.events (g.client.answer turn.call).1 := by
      cases (g.client.answer turn.call).1 <;> rfl
    rw [Gateway.ask_eq]
    simp [Gateway.emit, hturn, hcalled]
  case calls =>
    rw [Gateway.ask_eq]
    exact g.client.calls_answer turn.call
  case refuses => exact (Makes.one g turn.call).refuses_eq

theorem ask (g : Gateway) {call : ClientCall} (hcall : call ≠ .popCorrelation) :
    g.Accounts [] (g.ask call).2 := by
  have hemit : (g.ask call).2.emit [] = (g.ask call).2 := by simp [Gateway.emit]
  rw [← hemit]
  exact of_ask g (.ask call) hcall rfl

end Accounts
end Gateway

namespace Monitor

/-! ## Kinds -/

theorem accounts_switchKind (m : Monitor) (context : ContextHandle) (enable : Bool) (kind : Kind) :
    m.gateway.Accounts [] (m.switchKind context enable kind).2.gateway := by
  unfold switchKind
  split
  · exact .refl _
  · have hcall : requestCall enable context kind ≠ .popCorrelation := by
      cases enable <;> simp [requestCall]
    have hask := Gateway.Accounts.ask m.gateway hcall
    dsimp only [Gateway.attempt]
    split <;> exact hask

theorem accounts_switchEach (m : Monitor) (context : ContextHandle) (enable : Bool)
    (kinds : List Kind) (tally : Tally) :
    m.gateway.Accounts [] (m.switchEach context enable kinds tally).2.gateway := by
  induction kinds generalizing m tally with
  | nil => exact .refl _
  | cons kind kinds ih => exact (m.accounts_switchKind context enable kind).trans (ih _ _)

theorem accounts_switchSets (m : Monitor) (context : ContextHandle) (enable : Bool)
    (sets : List KindSet) (progress : NativeProgress) :
    m.gateway.Accounts [] (m.switchSets context enable sets progress).2.gateway := by
  induction sets generalizing m progress with
  | nil => exact .refl _
  | cons set sets ih => exact (m.accounts_switchEach context enable _ _).trans (ih _ _)

theorem accounts_switchCategories (m : Monitor) (context : ContextHandle) (flags : UInt32)
    (enable : Bool) :
    m.gateway.Accounts [] (m.switchCategories context flags enable).2.gateway := by
  unfold switchCategories
  cases chosenCategories? flags with
  | none => exact .refl _
  | some sets =>
    exact (m.accounts_switchSets context enable sets {}).trans
      (accounts_switchEach _ context true (Kind.valid KindSet.externalCorrelation.kinds) {})

end Monitor

namespace Session

variable {s s' : Session}

/-- All that a session does to its client and tells the error handler is accounted for by turns in
which these buffers were taken back. -/
abbrev Accounts (s : Session) (returns : List Return) (s' : Session) : Prop :=
  s.gateway.Accounts returns s'.gateway

/-! ## Buffers -/

/-- A buffer as the session takes it back now. -/
def returned (s : Session) (c : Completion) : Return := ⟨c, fun id => s.devices[id]?.isSome⟩

/-- What is taken back of a buffer that comes through the callbacks of the client. -/
def taken (s : Session) (c : Completion) : List Return :=
  if s.gateway.client.delivering then [s.returned c] else []

/-- The buffers that a flush takes back. -/
def flushed (s : Session) : List Return :=
  match s.gateway.client.refuses s.gateway.client.calls (.flushAll s.config.forcedFlush) with
  | some _ => []
  | none => s.gateway.client.queue.flatMap s.taken

theorem taken_congr (hdevices : s'.devices = s.devices)
    (hdelivering : s'.gateway.client.delivering = s.gateway.client.delivering) :
    s'.taken = s.taken := by
  funext c
  rw [taken, taken, returned, returned, hdevices, hdelivering]

theorem callsAndReports_spanEvents (s : Session) (bytes : Bytes) (spans : List Span) :
    callsAndReports (spans.filterMap (s.spanEvent? bytes)) =
      (spans.filter fun span => !s.devices[span.device]?.isSome).map fun span => .failure
        ⟨.protocol, "buffer_complete", (TraceError.unknownDevice span.device).message⟩ := by
  induction spans with
  | nil => rfl
  | cons span spans ih =>
    cases hdevice : s.devices[span.device]? with
    | none =>
      have hevent : s.spanEvent? bytes span = some (.failure
          ⟨.protocol, "buffer_complete", (TraceError.unknownDevice span.device).message⟩) := by
        simp [spanEvent?, hdevice, TraceError.report, TraceError.category]
      rw [List.filterMap_cons_some hevent, List.filter_cons_of_pos (by simp [hdevice]),
        List.map_cons, ← ih]
      rfl
    | some device =>
      rw [List.filter_cons_of_neg (by simp [hdevice]), ← ih]
      cases hcallback : device.callback with
      | none => rw [List.filterMap_cons_none (by simp [spanEvent?, hdevice, hcallback])]
      | some callback =>
        have hevent : s.spanEvent? bytes span = some (.records callback
            ⟨device.globalId, span.context, bytes.slice span.start span.stop⟩) := by
          simp [spanEvent?, hdevice, hcallback]
        rw [List.filterMap_cons_some hevent]
        rfl

theorem callsAndReports_recordEvents (s : Session) (c : Completion) :
    callsAndReports (s.recordEvents c.buffer.validBytes) =
      (s.returned c).reports.map .failure := by
  have hbytes : (s.returned c).bytes = c.buffer.validBytes := rfl
  rw [recordEvents_def, callsAndReports_append, callsAndReports_spanEvents, walkError_eq_scanAt,
    Return.reports, hbytes, List.map_append, List.map_map]
  congr 1
  cases scanAt c.buffer.validBytes (recordsEnd c.buffer.validBytes).position <;> rfl

theorem callsAndReports_droppedEvents (s : Session) (dropped : Option UInt64) :
    callsAndReports (s.droppedEvents dropped) = [] := by
  refine List.filter_eq_nil_iff.mpr fun e he => ?_
  obtain ⟨n, -, rfl⟩ := List.mem_map.mp he
  simp [Event.call?, Event.failure?]

theorem accounts_takeBack (s : Session) (c : Completion) :
    s.Accounts [s.returned c] (s.takeBack c) := by
  rw [takeBack_eq]
  refine Gateway.Accounts.of_ask s.gateway (.takeBack (s.returned c)) nofun ?_
  rw [callsAndReports_append, callsAndReports_droppedEvents, callsAndReports_recordEvents]
  simp [Turn.returned?]

theorem accounts_takeBackThroughClient (s : Session) (c : Completion) :
    s.Accounts (s.taken c) (s.takeBackThroughClient c) := by
  unfold takeBackThroughClient taken
  split
  · exact s.accounts_takeBack c
  · exact .refl _

theorem delivering_ask (s : Session) {call : ClientCall} (hcall : call.isLifecycle = false) :
    (s.ask call).2.gateway.client.delivering = s.gateway.client.delivering := by
  show (s.gateway.ask call).2.client.delivering = _
  rw [Gateway.ask_eq]
  show (s.gateway.client.answer call).2.delivering = _
  unfold DeviceClient.answer
  split
  · rfl
  · cases call <;> first | rfl | cases hcall
    simp only [DeviceClient.accept]
    split <;> rfl

/-- Taking back one buffer makes no difference to how the next one is taken back. -/
theorem taken_takeBackThroughClient (s : Session) (c : Completion) :
    (s.takeBackThroughClient c).taken = s.taken := by
  unfold takeBackThroughClient
  split
  · exact taken_congr rfl (s.delivering_ask rfl)
  · rfl

/-- A flush that is not refused takes back the buffers that wait at the client. -/
theorem flush_eq (s : Session) :
    let call : ClientCall := .flushAll s.config.forcedFlush
    s.flush.2 = match s.gateway.client.refuses s.gateway.client.calls call with
      | some _ => (s.ask call).2
      | none => s.gateway.client.queue.foldl takeBackThroughClient (s.ask call).2 := by
  intro call
  have hask : s.ask call = ((s.gateway.client.answer call).1.toOption, (s.ask call).2) := by
    unfold ask
    rw [Gateway.ask_eq]
  have hanswer : (s.gateway.client.answer call).1 =
      match s.gateway.client.refuses s.gateway.client.calls call with
      | some text => .error (.client call.function text)
      | none => .ok s.gateway.client.queue := by
    unfold DeviceClient.answer
    cases s.gateway.client.refuses s.gateway.client.calls call <;> rfl
  unfold flush
  rw [hask, hanswer]
  cases s.gateway.client.refuses s.gateway.client.calls call <;> rfl

theorem accounts_foldl (waiting : List Completion) (s : Session) :
    s.Accounts (waiting.flatMap s.taken) (waiting.foldl takeBackThroughClient s) := by
  induction waiting generalizing s with
  | nil => exact .refl _
  | cons c waiting ih =>
    have hrest := ih (s.takeBackThroughClient c)
    rw [taken_takeBackThroughClient] at hrest
    exact (s.accounts_takeBackThroughClient c).trans hrest

theorem accounts_flush (s : Session) : s.Accounts s.flushed s.flush.2 := by
  let call : ClientCall := .flushAll s.config.forcedFlush
  have hask : s.Accounts [] (s.ask call).2 := .ask s.gateway nofun
  rw [flush_eq, flushed]
  cases s.gateway.client.refuses s.gateway.client.calls (.flushAll s.config.forcedFlush) with
  | some text => exact hask
  | none =>
    have htaken : (s.ask call).2.taken = s.taken := taken_congr rfl (s.delivering_ask rfl)
    have hfold := accounts_foldl s.gateway.client.queue (s.ask call).2
    rw [htaken] at hfold
    exact hask.trans hfold

/-! ## Traces -/

theorem accounts_switchKinds (s : Session) (context : ContextHandle) (kinds : List Kind)
    (enable : Bool) : s.Accounts [] (s.switchKinds context kinds enable).2 :=
  s.monitor.accounts_switchEach context enable (Kind.valid kinds) {}

theorem accounts_addTrace (s : Session) : s.Accounts [] s.addTrace := by
  unfold addTrace
  split
  · exact .ask s.gateway nofun
  · exact .refl _

theorem accounts_removeTrace (s : Session) : s.Accounts [] s.removeTrace := by
  unfold removeTrace
  split
  · have hfirst : s.Accounts [] (s.tell .unsubscribe) := .ask s.gateway nofun
    exact hfirst.trans (.ask _ nofun)
  · exact .refl _

theorem accounts_openDelivery (s : Session) : s.Accounts [] s.openDelivery :=
  .ask s.gateway nofun

theorem accounts_closeDelivery (s : Session) : s.Accounts [] s.closeDelivery := by
  unfold closeDelivery
  split
  · exact .ask s.gateway nofun
  · exact .refl _

end Session

namespace Tracer

variable (t : Tracer) (s : Session)

/-- The buffers that are taken back when the trace is paused, stopped or dropped. A started trace is
flushed then, and no other one. -/
def flushed : List Return := if t.state = .started then s.flushed else []

theorem accounts_suspend : s.Accounts s.flushed (t.suspend s).2 :=
  (s.accounts_flush.trans_nil (s.flush.2.accounts_switchKinds _ _ _)).trans_nil
    (t.quieted s).accounts_closeDelivery

theorem accounts_resume : s.Accounts [] (t.resume s).2 :=
  s.accounts_openDelivery.trans (s.openDelivery.accounts_switchKinds _ _ _)

theorem accounts_retire : s.Accounts [] (t.retire s).2 :=
  ((s.forgetKinds t.context).setCallback t.device none).accounts_removeTrace

theorem accounts_start (source : BufferSource) (callback : Nat) :
    s.Accounts [] (t.start s source callback).2.2 := by
  let opened := { s with source }.setCallback t.device (some callback)
  rw [start_eq]
  cases t.state with
  | uninitialized | initialized =>
    exact opened.accounts_addTrace.trans opened.addTrace.accounts_openDelivery
  | paused => exact t.accounts_resume opened
  | started | stopped => exact .refl _

theorem accounts_pause (begin : Bool) :
    s.Accounts (if begin then t.flushed s else []) (t.pause s begin).2.2 := by
  unfold pause flushed
  -- Only a started trace is flushed, and only to begin a pause.
  cases begin with
  | true =>
    cases t.state with
    | started => exact t.accounts_suspend s
    | uninitialized | initialized | paused | stopped => exact .refl _
  | false =>
    cases t.state with
    | paused => exact t.accounts_resume s
    | uninitialized | initialized | started | stopped => exact .refl _

theorem accounts_stop : s.Accounts (t.flushed s) (t.stop s).2 := by
  unfold stop flushed
  cases t.state with
  | started => exact (t.accounts_suspend s).trans_nil ((t.suspend s).1.accounts_retire _)
  | paused => exact t.accounts_retire s
  | uninitialized | initialized | stopped => exact .refl _

theorem accounts_dispose : s.Accounts (t.flushed s) (t.dispose s) := by
  have hstop := t.accounts_stop s
  unfold dispose
  cases hstate : t.state with
  | started | paused => exact hstop
  | uninitialized | initialized | stopped =>
    rw [flushed, if_neg (by simp [hstate])]
    exact .refl _

end Tracer

/-! ## Runs -/

/-- Whether an operation neither asks for a buffer nor is an API call of a worker. Those have
failures of their own. -/
def Operation.isTracing : Operation → Bool
  | .supply | .supplyThroughClient | .intercept .. => false
  | _ => true

namespace System

/-- The buffers that an operation has the session take back, in order. -/
def returns (sys : System) : Operation → List Return
  | .takeBack c => if sys.held then [sys.session.returned c] else []
  | .takeBackThroughClient c => if sys.alive then sys.session.taken c else []
  | .flush index => (sys.tracer? index).elim [] fun _ => sys.session.flushed
  | .pause index true | .stop index | .drop index =>
    (sys.tracer? index).elim [] fun t => t.flushed sys.session
  | _ => []

variable {sys : System} {index : Nat}

theorem accounts_command {operation : Tracer → Session → Bool × Tracer × Session}
    {returns : Tracer → List Return}
    (h : ∀ t, sys.session.Accounts (returns t) (operation t sys.session).2.2) :
    sys.session.Accounts ((sys.tracer? index).elim [] returns)
      (sys.command index operation).2.session := by
  cases ht : sys.tracer? index with
  | none =>
    rw [command_none ht]
    exact .refl _
  | some t =>
    rw [command_some ht]
    exact h t

theorem accounts_serve {effect : Tracer → Session → Session} {returns : Tracer → List Return}
    (h : ∀ t, sys.session.Accounts (returns t) (effect t sys.session)) :
    sys.session.Accounts ((sys.tracer? index).elim [] returns)
      (sys.serve index effect).session := by
  unfold serve
  cases sys.tracer? index with
  | none => exact .refl _
  | some t => exact h t

theorem accounts_owned {effect : Session → Session} {returns : List Return}
    (h : sys.session.Accounts returns (effect sys.session)) :
    sys.session.Accounts (if sys.held then returns else []) (sys.owned effect).session := by
  unfold owned
  split
  · exact h
  · exact .refl _

theorem accounts_dropTracer :
    sys.session.Accounts ((sys.tracer? index).elim [] fun t => t.flushed sys.session)
      (sys.dropTracer index).2.session := by
  unfold dropTracer
  cases sys.tracer? index with
  | none => exact .refl _
  | some t => exact t.accounts_dispose sys.session

/-- What one operation does to the client and tells the error handler. -/
theorem accounts_step (sys : System) {op : Operation} (hop : op.isTracing) :
    sys.session.Accounts (sys.returns op) (sys.step op).session := by
  -- Operations that take nothing back do so whether their tracer is there or not.
  have hidle (index : Nat) : (sys.tracer? index).elim [] (fun _ => ([] : List Return)) = [] := by
    cases sys.tracer? index <;> rfl
  have hcommand {index : Nat} {operation : Tracer → Session → Bool × Tracer × Session}
      (h : ∀ t, sys.session.Accounts [] (operation t sys.session).2.2) :
      sys.session.Accounts [] (sys.command index operation).2.session :=
    hidle index ▸ accounts_command h
  have hserve {index : Nat} {effect : Tracer → Session → Session}
      (h : ∀ t, sys.session.Accounts [] (effect t sys.session)) :
      sys.session.Accounts [] (sys.serve index effect).session :=
    hidle index ▸ accounts_serve h
  have howned (effect : Session → Session) (h : sys.session.Accounts [] (effect sys.session)) :
      sys.session.Accounts [] (sys.owned effect).session :=
    ite_self (c := sys.held) ([] : List Return) ▸ accounts_owned h
  cases op with
  | register device globalId context =>
    dsimp only [step, perform]
    split <;> exact .refl _
  | prepare index => exact hcommand fun t => .refl _
  | start index source callback =>
    exact hcommand fun t => t.accounts_start sys.session source callback
  | pause index begin =>
    cases begin with
    | true => exact accounts_command fun t => t.accounts_pause sys.session true
    | false => exact hcommand fun t => t.accounts_pause sys.session false
  | stop index => exact accounts_command fun t => t.accounts_stop sys.session
  | drop index => exact accounts_dropTracer
  | flush index => exact accounts_serve fun _ => sys.session.accounts_flush
  | clock index => exact hserve fun _ => .ask _ nofun
  | switchSet index set enable =>
    exact hserve fun t => sys.session.accounts_switchKinds t.context set.kinds enable
  | switchCategories index flags enable =>
    exact hserve fun t => sys.session.monitor.accounts_switchCategories t.context flags enable
  | switchKindsOf context kinds enable =>
    exact howned _ (sys.session.accounts_switchKinds context kinds enable)
  | switchCategoriesOf context flags enable =>
    exact howned _ (sys.session.monitor.accounts_switchCategories context flags enable)
  | forget context => exact howned _ (.refl _)
  | noteModule event id image =>
    refine howned (·.noteModule event id image) ?_
    unfold Session.noteModule
    split
    · exact .emit _ rfl
    · exact .refl _
  | takeBack c => exact accounts_owned (sys.session.accounts_takeBack c)
  | takeBackThroughClient c =>
    dsimp only [step, perform, takeBackThroughClient, returns]
    split
    · exact sys.session.accounts_takeBackThroughClient c
    · exact .refl _
  | refresh queue timestamp dropped => exact .of_still rfl rfl rfl
  | release => exact .refl _
  | supply | supplyThroughClient | intercept stack site function id => cases hop

theorem accounts_run (sys : System) {ops : List Operation} (hops : ∀ op ∈ ops, op.isTracing) :
    sys.session.Accounts ((sys.trail ops).flatMap fun entry => entry.1.returns entry.2)
      (sys.run ops).session := by
  induction ops generalizing sys with
  | nil => exact .refl _
  | cons op ops ih =>
    have hfirst := sys.accounts_step (hops op List.mem_cons_self)
    exact hfirst.trans (ih (sys.step op) fun op hop => hops op (List.mem_cons_of_mem _ hop))

/-- In every run without requests for buffers and without API calls of workers, whatever the client
refuses, the error handler is told this and nothing else. There is a turn for each call that the
client has counted, and the policy of the client for that call says whether it is refused. A refused
call is reported at once, as a failure of the device client, under the name of its function and with
the text of the error. With the call for the number of lost records a buffer is taken back, and then
each of its spans whose device is not registered is reported, in the order of the spans, and last
the corrupt record at which the walk over it ends, if it ends at one. The buffers are those that the
operations have the session take back, in order. -/
theorem reports_of_run {config : SessionConfig} {client : DeviceClient} {session : Session}
    (h : Session.build config client = .ok session) {ops : List Operation}
    (hops : ∀ op ∈ ops, op.isTracing) :
    let gateway := (({ session } : System).run ops).session.gateway
    ∃ turns : List Turn,
      gateway.client.calls = client.calls + turns.length ∧
      callsAndReports gateway.journal = (turns.zipIdx client.calls).flatMap (fun (turn, n) =>
        turn.events (client.refuses n turn.call)) ∧
      gateway.journal.filterMap Event.failure? = (turns.zipIdx client.calls).flatMap
        (fun (turn, n) => turn.reports (client.refuses n turn.call)) ∧
      turns.filterMap Turn.returned? =
        (({ session } : System).trail ops).flatMap fun (sys, op) => sys.returns op := by
  intro gateway
  obtain ⟨turns, hturns, hreturns⟩ := accounts_run { session } hops
  obtain rfl := build_eq h
  have htold : callsAndReports gateway.journal = (turns.zipIdx client.calls).flatMap
      (fun (turn, n) => turn.events (client.refuses n turn.call)) := hturns.told
  refine ⟨turns, hturns.calls, htold, ?_, hreturns⟩
  rw [← filterMap_failure?_callsAndReports, htold, List.filterMap_flatMap]
  exact List.flatMap_congr fun entry _ => filterMap_failure?_events _ entry.1

/-- A client that refuses two functions, and a flush of a buffer where the registered device 0
stands between two others, and which ends in a record of 4 bytes. -/
theorem reports_of_run_refused :
    let client : DeviceClient := { refuses := fun _ call => match call with
      | .subscribe | .droppedRecordCount .. => some "refused"
      | _ => none }
    let session : Session := { config := {}, monitor := { gateway := { client } } }
    let bytes := ContextMark.encode ⟨5, 9, 0, 0⟩ ++ ContextMark.encode ⟨5, 0, 0, 0⟩ ++
      ContextMark.encode ⟨5, 8, 0, 0⟩ ++ [2, 0, 0, 0, 4, 0, 0, 0]
    let ops : List Operation := [.register 0 0 ⟨1⟩, .start 0 .session 0,
      .refresh [⟨⟨1⟩, 0, ⟨bytes, 80⟩⟩] 0 0, .clock 0, .flush 0, .stop 0]
    let reports : List ErrorReport :=
      [⟨.deviceClient, "subscribe", "subscribe failed: refused"⟩,
       ⟨.deviceClient, "dropped_record_count", "dropped_record_count failed: refused"⟩,
       ⟨.protocol, "buffer_complete", "unknown device 9"⟩,
       ⟨.protocol, "buffer_complete", "unknown device 8"⟩,
       ⟨.protocol, "buffer_complete", "corrupt activity record at offset 72"⟩]
    Session.build {} client = .ok session ∧ (∀ op ∈ ops, op.isTracing) ∧
      (({ session } : System).run ops).session.gateway.journal.filterMap Event.failure? = reports ∧
      ∃ turns : List Turn, turns.length = 9 ∧
        turns.zipIdx.flatMap (fun (turn, n) => turn.reports (client.refuses n turn.call)) =
          reports := by
  intro client session bytes ops reports
  have hbuild : Session.build {} client = .ok session := rfl
  have hops : ∀ op ∈ ops, op.isTracing := by decide
  have hcount : (({ session } : System).run ops).session.gateway.client.calls = 0 + 9 := by
    decide +kernel
  have htold : (({ session } : System).run ops).session.gateway.journal.filterMap Event.failure? =
      reports := by
    decide +kernel
  obtain ⟨turns, hcalls, -, hreports, -⟩ := reports_of_run hbuild hops
  have hlength : turns.length = 9 := Nat.add_left_cancel (hcalls.symm.trans hcount)
  exact ⟨hbuild, hops, htold, turns, hlength, hreports.symm.trans htold⟩

end System
end DeviceTrace
