import DeviceTrace.Monitor.Native
import DeviceTrace.Proofs.Monitor.Switching
import Mathlib.Logic.Relation

/-!
# What a monitor records when its client refuses calls

A monitor records a kind as enabled or disabled after the client has accepted the call, and a call
that is refused changes nothing on either side. So the record and the client move together whatever
is refused, as long as no context is forgotten, and no call asks for what the client has already.
The journal, which keeps how each call ended, tells at every point what the client has enabled.
-/

namespace DeviceTrace

/-! ## Reading the journal -/

/-- What an event does to the enabled kinds of the client. A refused call does nothing. -/
def EnabledKinds.afterEvent (kinds : EnabledKinds) : Event → EnabledKinds
  | .call call none => kinds.after call
  | _ => kinds

/-- The kinds that these events leave enabled at a client that had none enabled before. -/
def enabledBy (journal : List Event) : EnabledKinds := journal.foldl EnabledKinds.afterEvent .empty

/-- A call that switches a kind asks for something else than what is there, and never switches
`invalid`. -/
def ClientCall.Switches (kinds : EnabledKinds) : ClientCall → Prop
  | .enableKind context kind => kind ≠ .invalid ∧ kinds.contains context kind = false
  | .disableKind context kind => kind ≠ .invalid ∧ kinds.contains context kind = true
  | _ => True

theorem ClientCall.switches_of_kind? {kinds : EnabledKinds} {call : ClientCall}
    (h : call.kind? = none) : call.Switches kinds := by
  cases call <;> first | exact trivial | cases h

/-- Each call switches a kind of which the client has the opposite at that moment. -/
def Orderly (journal : List Event) : Prop :=
  ∀ before call failure after, journal = before ++ .call call failure :: after →
    call.Switches (enabledBy before)

/-- The call is among the events, and the client refused it. -/
def Refused (events : List Event) (call : ClientCall) : Prop :=
  ∃ error, .call call (some error) ∈ events

theorem refused_append {events more : List Event} {call : ClientCall} :
    Refused (events ++ more) call ↔ Refused events call ∨ Refused more call := by
  simp only [Refused, List.mem_append, exists_or]

theorem enabledBy_append_events (journal : List Event) (call : ClientCall)
    (answer : Except TraceError call.Reply) :
    enabledBy (journal ++ call.events answer) = match answer with
      | .ok _ => (enabledBy journal).after call
      | .error _ => enabledBy journal := by
  unfold enabledBy
  rw [List.foldl_append]
  cases answer <;> rfl

theorem Orderly.append {journal events : List Event} (h : Orderly journal)
    (hevents : ∀ before call failure after, events = before ++ .call call failure :: after →
      call.Switches (enabledBy (journal ++ before))) : Orderly (journal ++ events) := by
  intro before call failure after heq
  rcases List.append_eq_append_iff.mp heq with ⟨between, rfl, hnew⟩ | ⟨between, rfl, hnew⟩
  · exact hevents between call failure after hnew
  · cases between with
    | nil =>
      have hswitches := hevents [] call failure after hnew.symm
      simpa using hswitches
    | cons first between =>
      obtain ⟨rfl, -⟩ := List.cons.inj hnew
      exact h before call failure between rfl

/-- Of the events of a call only the first is a call. -/
theorem Orderly.append_events {journal : List Event} (h : Orderly journal) {call : ClientCall}
    (hcall : call.Switches (enabledBy journal)) (answer : Except TraceError call.Reply) :
    Orderly (journal ++ call.events answer) := by
  refine h.append fun before other failure after heq => ?_
  cases before with
  | nil =>
    obtain rfl : call = other := by cases answer <;> exact (Event.call.inj (List.cons.inj heq).1).1
    simpa using hcall
  | cons first before =>
    cases answer with
    | ok _ => simp [ClientCall.events] at heq
    | error _ => cases before <;> simp [ClientCall.events] at heq

theorem Orderly.append_other {journal events : List Event} (h : Orderly journal)
    (hevents : ∀ e ∈ events, e.call? = none) : Orderly (journal ++ events) := by
  refine h.append fun before call failure after heq => ?_
  have hcall : (Event.call call failure).call? = none := hevents _ (by simp [heq])
  cases hcall

namespace Gateway

variable {g g' : Gateway}

/-- The journal tells what the client has enabled, and it is orderly. -/
structure Traced (g : Gateway) : Prop where
  enabled : g.client.enabledKinds = enabledBy g.journal
  orderly : Orderly g.journal

theorem Traced.ask (h : g.Traced) {call : ClientCall}
    (hcall : call.Switches g.client.enabledKinds) : (g.ask call).2.Traced := by
  rw [ask_eq]
  refine ⟨?enabled, h.orderly.append_events (h.enabled ▸ hcall) _⟩
  case enabled =>
    show (g.client.answer call).2.enabledKinds = _
    rewrite [DeviceClient.enabledKinds_answer, enabledBy_append_events, h.enabled]
    cases (g.client.answer call).1 <;> rfl

theorem Traced.makes (h : g.Traced) {calls : List ClientCall} (hmakes : g.Makes calls g')
    (hcalls : ∀ call ∈ calls, call.kind? = none) : g'.Traced := by
  induction hmakes with
  | refl => exact h
  | @ask calls g' call _ ih =>
    refine Traced.ask (ih fun c hc => hcalls c (List.mem_append_left _ hc)) ?_
    exact ClientCall.switches_of_kind? (hcalls call (by simp))
  | @emit calls g' events _ hevents ih =>
    have htraced := ih hcalls
    refine ⟨htraced.enabled.trans ?_, htraced.orderly.append_other hevents⟩
    -- events other than calls leave the client alone
    have hsame : ∀ kinds, events.foldl EnabledKinds.afterEvent kinds = kinds := by
      clear ih htraced
      induction events with
      | nil => exact fun _ => rfl
      | cons e events ih =>
        intro kinds
        have he : kinds.afterEvent e = kinds := by
          have hcall := hevents e List.mem_cons_self
          cases e <;> first | rfl | cases hcall
        rw [List.foldl_cons, he]
        exact ih (fun e he => hevents e (List.mem_cons_of_mem _ he)) kinds
    show enabledBy g'.journal = enabledBy (g'.journal ++ events)
    rw [enabledBy, enabledBy, List.foldl_append, hsame]
  | refresh _ _ _ _ ih =>
    have htraced := ih hcalls
    exact ⟨htraced.enabled, htraced.orderly⟩

end Gateway

namespace Monitor

variable {m m' : Monitor}

/-! ## Switching one kind -/

/-- How it can go to switch a kind. -/
inductive Switched (m : Monitor) (context : ContextHandle) (enable : Bool) (kind : Kind) :
    Bool × Monitor → Prop
  /-- The kind is recorded in the requested state, and the client is not called. -/
  | recorded : m.enabled.contains context kind = enable → Switched m context enable kind (true, m)
  | accepted {gateway : Gateway} : m.enabled.contains context kind ≠ enable →
      gateway = (m.gateway.ask (requestCall enable context kind)).2 →
      gateway.journal = m.gateway.journal ++ [.call (requestCall enable context kind) none] →
      gateway.client.enabledKinds = m.gateway.client.enabledKinds.set context kind enable →
      Switched m context enable kind (true, ⟨m.enabled.set context kind enable, gateway⟩)
  | refused {gateway : Gateway} (error : TraceError) (report : ErrorReport) :
      m.enabled.contains context kind ≠ enable →
      gateway = (m.gateway.ask (requestCall enable context kind)).2 →
      gateway.journal = m.gateway.journal ++
        [.call (requestCall enable context kind) (some error), .failure report] →
      gateway.client.enabledKinds = m.gateway.client.enabledKinds →
      Switched m context enable kind (false, ⟨m.enabled, gateway⟩)

theorem switchKind_switched (m : Monitor) (context : ContextHandle) (enable : Bool) (kind : Kind) :
    m.Switched context enable kind (m.switchKind context enable kind) := by
  unfold switchKind
  by_cases hsame : m.enabled.contains context kind = enable
  · rw [if_pos hsame]
    exact .recorded hsame
  · rw [if_neg hsame]
    have hkinds := m.gateway.client.enabledKinds_answer (requestCall enable context kind)
    dsimp only [Gateway.attempt]
    rw [Gateway.ask_eq]
    cases hanswer : (m.gateway.client.answer (requestCall enable context kind)).1 with
    | ok reply =>
      rw [hanswer] at hkinds
      refine .accepted hsame ?_ rfl (hkinds.trans ?_)
      · rw [Gateway.ask_eq, hanswer]
      · cases enable <;> rfl
    | error error =>
      rw [hanswer] at hkinds
      refine .refused error _ hsame ?_ rfl hkinds
      rw [Gateway.ask_eq, hanswer]

/-! ## Moves of a monitor -/

/-- What happens to a monitor: its gateway makes calls that switch no kind, a kind is switched in
one of the touched contexts, or such a context is forgotten. -/
inductive Move (touched : ContextHandle → Prop) (forgets : Prop) (m : Monitor) : Monitor → Prop
  | calls {calls : List ClientCall} {gateway : Gateway} : m.gateway.Makes calls gateway →
      (∀ call ∈ calls, call.kind? = none) → Move touched forgets m { m with gateway }
  | switch {context : ContextHandle} {enable : Bool} {kind : Kind} {result : Bool × Monitor} :
      touched context → kind ≠ .invalid → m.Switched context enable kind result →
      Move touched forgets m result.2
  | forget {context : ContextHandle} : forgets → touched context →
      Move touched forgets m (m.forget context)

/-- Moves one after the other. -/
abbrev Moves (touched : ContextHandle → Prop) (forgets : Prop) : Monitor → Monitor → Prop :=
  Relation.ReflTransGen (Move touched forgets)

/-- The record and the client agree on a context. -/
def Agrees (m : Monitor) (context : ContextHandle) : Prop :=
  ∀ kind, m.enabled.contains context kind = m.atClient context kind

/-- The kind that ends lists of kinds is recorded nowhere. -/
def Valid (m : Monitor) : Prop := ∀ context, m.enabled.contains context .invalid = false

/-- The record is what the client has enabled, and the journal tells how it came to this. -/
structure Truthful (m : Monitor) : Prop where
  traced : m.gateway.Traced
  agrees : ∀ context, m.Agrees context
  valid : m.Valid

section Moves

variable {touched : ContextHandle → Prop} {forgets : Prop}

theorem Move.valid (h : Move touched forgets m m') (hm : m.Valid) : m'.Valid := by
  intro c
  cases h with
  | calls _ _ => exact hm c
  | @switch context enable kind _ _ hkind hswitched =>
    cases hswitched with
    | recorded _ | refused _ _ _ _ _ _ => exact hm c
    | accepted _ _ _ _ =>
      show (m.enabled.set context kind enable).contains c .invalid = false
      rw [EnabledKinds.contains_set, if_neg fun heq => hkind heq.2.symm]
      exact hm c
  | @forget context _ _ =>
    show (m.enabled.clear context).contains c .invalid = false
    rw [EnabledKinds.contains_clear, hm]
    split <;> rfl

/-- Kinds of other contexts stay recorded as they are. -/
theorem Move.contains_eq (h : Move touched forgets m m') {c : ContextHandle} (hc : ¬ touched c)
    (kind : Kind) : m'.enabled.contains c kind = m.enabled.contains c kind := by
  cases h with
  | calls _ _ => rfl
  | @switch context enable other _ hcontext _ hswitched =>
    have hne : c ≠ context := by
      rintro rfl
      exact hc hcontext
    cases hswitched with
    | recorded _ | refused _ _ _ _ _ _ => rfl
    | accepted _ _ _ _ =>
      show (m.enabled.set context other enable).contains c kind = _
      rw [EnabledKinds.contains_set, if_neg fun heq => hne heq.1]
  | @forget context _ hcontext =>
    have hne : c ≠ context := by
      rintro rfl
      exact hc hcontext
    show (m.enabled.clear context).contains c kind = _
    rw [EnabledKinds.contains_clear, if_neg hne]

theorem Move.agrees (h : Move touched forgets m m') {c : ContextHandle}
    (hkept : forgets → ¬ touched c) (hm : m.Agrees c) : m'.Agrees c := by
  cases h with
  | calls hmakes hcalls =>
    intro k
    show m.enabled.contains c k = _
    rw [hm k, atClient, atClient, hmakes.enabledKinds_eq hcalls]
  | @switch context enable kind _ _ _ hswitched =>
    cases hswitched with
    | recorded _ => exact hm
    | accepted _ _ _ hclient =>
      intro k
      show (m.enabled.set context kind enable).contains c k = _
      rw [atClient, hclient, EnabledKinds.contains_set, EnabledKinds.contains_set, hm k, atClient]
    | refused _ _ _ _ _ hclient =>
      intro k
      show m.enabled.contains c k = _
      rw [hm k, atClient, atClient, hclient]
  | @forget context hforget hcontext =>
    have hne : c ≠ context := by
      rintro rfl
      exact hkept hforget hcontext
    intro k
    show (m.enabled.clear context).contains c k = _
    rw [EnabledKinds.contains_clear, if_neg hne]
    exact hm k

theorem Move.truthful (h : Move touched forgets m m') (hforgets : ¬ forgets) (hm : m.Truthful) :
    m'.Truthful := by
  refine ⟨?traced, fun c => h.agrees (fun hf => absurd hf hforgets) (hm.agrees c), h.valid hm.valid⟩
  case traced =>
    cases h with
    | calls hmakes hcalls => exact hm.traced.makes hmakes hcalls
    | @switch context enable kind _ _ hkind hswitched =>
      have hask (hne : m.enabled.contains context kind ≠ enable) :
          (m.gateway.ask (requestCall enable context kind)).2.Traced := by
        refine hm.traced.ask ?_
        have hclient : m.gateway.client.enabledKinds.contains context kind ≠ enable := by
          rw [← atClient, ← hm.agrees context kind]
          exact hne
        cases enable with
        | true => exact ⟨hkind, Bool.eq_false_iff.mpr hclient⟩
        | false => exact ⟨hkind, by simpa using hclient⟩
      cases hswitched with
      | recorded _ => exact hm.traced
      | accepted hne hgateway _ _ | refused _ _ hne hgateway _ _ =>
        show Gateway.Traced _
        rw [hgateway]
        exact hask hne
    | forget hforget _ => exact absurd hforget hforgets

theorem Moves.valid (h : Moves touched forgets m m') (hm : m.Valid) : m'.Valid := by
  induction h with
  | refl => exact hm
  | tail _ hmove ih => exact hmove.valid ih

theorem Moves.contains_eq (h : Moves touched forgets m m') {c : ContextHandle} (hc : ¬ touched c)
    (kind : Kind) : m'.enabled.contains c kind = m.enabled.contains c kind := by
  induction h with
  | refl => rfl
  | tail _ hmove ih => exact (hmove.contains_eq hc kind).trans ih

theorem Moves.agrees (h : Moves touched forgets m m') {c : ContextHandle}
    (hkept : forgets → ¬ touched c) (hm : m.Agrees c) : m'.Agrees c := by
  induction h with
  | refl => exact hm
  | tail _ hmove ih => exact hmove.agrees hkept ih

theorem Moves.truthful (h : Moves touched forgets m m') (hforgets : ¬ forgets) (hm : m.Truthful) :
    m'.Truthful := by
  induction h with
  | refl => exact hm
  | tail _ hmove ih => exact hmove.truthful hforgets ih

/-! ## Switching many kinds -/

theorem moves_switchEach (m : Monitor) {context : ContextHandle} (hcontext : touched context)
    (enable : Bool) {kinds : List Kind} (hkinds : .invalid ∉ kinds) (tally : Tally) :
    Moves touched forgets m (m.switchEach context enable kinds tally).2 := by
  induction kinds generalizing m tally with
  | nil => exact .refl
  | cons kind kinds ih =>
    have hfirst : kind ≠ .invalid := fun heq => hkinds (heq ▸ List.mem_cons_self)
    have hrest := ih (m.switchKind context enable kind).2
      (fun hmem => hkinds (List.mem_cons_of_mem _ hmem))
      (tally.count (m.switchKind context enable kind).1)
    exact .head (.switch hcontext hfirst (m.switchKind_switched context enable kind)) hrest

theorem moves_switchKinds (m : Monitor) {context : ContextHandle} (hcontext : touched context)
    (kinds : List Kind) (enable : Bool) :
    Moves touched forgets m (m.switchKinds context kinds enable).2 :=
  m.moves_switchEach hcontext enable (Kind.invalid_not_mem_valid kinds) {}

theorem moves_switchSets (m : Monitor) {context : ContextHandle} (hcontext : touched context)
    (enable : Bool) (sets : List KindSet) (progress : NativeProgress) :
    Moves touched forgets m (m.switchSets context enable sets progress).2 := by
  induction sets generalizing m progress with
  | nil => exact .refl
  | cons set sets ih =>
    exact (m.moves_switchKinds hcontext set.kinds enable).trans
      (ih (m.switchSet context set enable).2
        (progress.add (m.switchSet context set enable).1))

theorem moves_switchCategories (m : Monitor) {context : ContextHandle} (hcontext : touched context)
    (flags : UInt32) (enable : Bool) :
    Moves touched forgets m (m.switchCategories context flags enable).2 := by
  unfold switchCategories
  cases chosenCategories? flags with
  | none => exact .refl
  | some sets =>
    exact (m.moves_switchSets hcontext enable sets {}).trans
      (moves_switchKinds _ hcontext KindSet.externalCorrelation.kinds true)

end Moves

/-! ## What is recorded of a list of kinds -/

theorem requestCall_inj {enable : Bool} {context : ContextHandle} {kind other : Kind}
    (h : requestCall enable context kind = requestCall enable context other) : kind = other := by
  cases enable <;> simpa [requestCall] using h

theorem Switched.recorded_eq {context : ContextHandle} {enable : Bool} {kind : Kind}
    {result : Bool × Monitor} (h : m.Switched context enable kind result) :
    ∃ events, result.2.gateway.journal = m.gateway.journal ++ events ∧
      (∀ call, Refused events call → call = requestCall enable context kind ∧
        m.enabled.contains context kind ≠ enable) ∧
      (∀ other, other ≠ kind ∨ Refused events (requestCall enable context other) →
        result.2.enabled.contains context other = m.enabled.contains context other) ∧
      (¬ Refused events (requestCall enable context kind) →
        result.2.enabled.contains context kind = enable) := by
  cases h with
  | recorded hsame => exact ⟨[], by simp, by simp [Refused], fun _ _ => rfl, fun _ => hsame⟩
  | accepted _ _ hjournal _ =>
    refine ⟨_, hjournal, by simp [Refused], fun other hother => ?_, fun _ => ?_⟩
    · have hne : other ≠ kind := hother.elim id fun hrefused => by simp [Refused] at hrefused
      show (m.enabled.set context kind enable).contains context other = _
      rw [EnabledKinds.contains_set, if_neg fun heq => hne heq.2]
    · show (m.enabled.set context kind enable).contains context kind = enable
      rw [EnabledKinds.contains_set, if_pos ⟨rfl, rfl⟩]
  | refused error report hne _ hjournal _ =>
    refine ⟨_, hjournal, fun call hcall => ?_, fun _ _ => rfl, fun hnot => ?_⟩
    · obtain ⟨_, hmem⟩ := hcall
      rcases List.mem_cons.mp hmem with heq | hmem
      · exact ⟨(Event.call.inj heq).1, hne⟩
      · cases List.mem_singleton.mp hmem
    · exact absurd ⟨error, List.mem_cons_self⟩ hnot

/-- What switching kinds records when each is listed once: those that the client did not refuse are
in the requested state, and all others are as they were. -/
theorem switchEach_recorded (m : Monitor) (context : ContextHandle) (enable : Bool)
    {kinds : List Kind} (hnodup : kinds.Nodup) (tally : Tally) :
    ∃ events, (m.switchEach context enable kinds tally).2.gateway.journal =
        m.gateway.journal ++ events ∧
      (∀ call, Refused events call → ∃ kind ∈ kinds, call = requestCall enable context kind ∧
        m.enabled.contains context kind ≠ enable) ∧
      (∀ kind, kind ∉ kinds ∨ Refused events (requestCall enable context kind) →
        (m.switchEach context enable kinds tally).2.enabled.contains context kind =
          m.enabled.contains context kind) ∧
      ∀ kind ∈ kinds, ¬ Refused events (requestCall enable context kind) →
        (m.switchEach context enable kinds tally).2.enabled.contains context kind = enable := by
  induction kinds generalizing m tally with
  | nil => exact ⟨[], by simp [switchEach], by simp [Refused], fun _ _ => rfl, by simp⟩
  | cons first kinds ih =>
    obtain ⟨hfirst, hkinds⟩ := List.nodup_cons.mp hnodup
    obtain ⟨events, hjournal, hrefused, hkept, hswitched⟩ :=
      (m.switchKind_switched context enable first).recorded_eq
    obtain ⟨more, hjournal', hrefused', hkept', hswitched'⟩ :=
      ih (m.switchKind context enable first).2 hkinds
        (tally.count (m.switchKind context enable first).1)
    have hother {kind : Kind} (hmem : kind ∈ kinds) : kind ≠ first := by
      rintro rfl
      exact hfirst hmem
    rw [switchEach_cons]
    refine ⟨events ++ more, by rw [hjournal', hjournal, List.append_assoc], ?refused, ?kept,
      ?switched⟩
    case refused =>
      intro call hcall
      rcases refused_append.mp hcall with hcall | hcall
      · exact ⟨first, List.mem_cons_self, hrefused call hcall⟩
      · obtain ⟨kind, hmem, heq, hne⟩ := hrefused' call hcall
        rw [hkept kind (.inl (hother hmem))] at hne
        exact ⟨kind, List.mem_cons_of_mem _ hmem, heq, hne⟩
    case kept =>
      rintro kind (hnot | hcall)
      · rw [hkept' kind (.inl fun hmem => hnot (List.mem_cons_of_mem _ hmem)),
          hkept kind (.inl fun heq => hnot (heq ▸ List.mem_cons_self))]
      · rcases refused_append.mp hcall with hcall | hcall
        · obtain rfl := requestCall_inj (hrefused _ hcall).1
          rw [hkept' kind (.inl hfirst), hkept kind (.inr hcall)]
        · obtain ⟨same, hmem, heq, -⟩ := hrefused' _ hcall
          obtain rfl := requestCall_inj heq
          rw [hkept' kind (.inr hcall), hkept kind (.inl (hother hmem))]
    case switched =>
      intro kind hmem hnot
      rw [refused_append, not_or] at hnot
      rcases List.mem_cons.mp hmem with rfl | hmem
      · rw [hkept' kind (.inl hfirst), hswitched hnot.1]
      · exact hswitched' kind hmem hnot.2

end Monitor
end DeviceTrace
