import DeviceTrace.Client.Faults
import DeviceTrace.Proofs.Monitor.Refusals
import DeviceTrace.Proofs.Session.Balance

/-!
# The record of the enabled kinds

Each operation moves the monitor of a session in one context at most, and only stopping or dropping
a trace and the owner's wish have a context forgotten. Where nothing is forgotten, the record is
true whatever calls the client refuses: a kind is recorded as enabled exactly if the client has it
enabled, and no call asks the client for what it has.
-/

namespace DeviceTrace

theorem Kind.all_increasing : Kind.all.Pairwise fun kind other => kind.code < other.code := by
  decide +kernel

/-- Whether an operation may have kinds forgotten that are enabled at the client. -/
def Operation.forgets : Operation → Bool
  | .stop _ | .drop _ | .forget _ => true
  | _ => false

section Monitors

variable {touched : ContextHandle → Prop} {forgets : Prop}

namespace Session

variable {s s' : Session}

theorem Calm.monitor_moves (h : s.Calm s') :
    Monitor.Moves touched forgets s.monitor s'.monitor := by
  obtain ⟨calls, hmakes, hneutral⟩ := h.makes
  rw [h.same]
  refine .single (.calls hmakes fun call hcall => ?_)
  exact ClientCall.kind?_of_isNeutral (hneutral call hcall)

theorem Counts.monitor_moves {active delivering : Nat} (h : s.Counts active delivering s') :
    Monitor.Moves touched forgets s.monitor s'.monitor := by
  obtain ⟨calls, hmakes, hlifecycle⟩ := h.makes
  rw [h.same]
  exact .single (.calls hmakes fun call hcall =>
    ClientCall.kind?_of_isLifecycle (hlifecycle call hcall))

end Session

namespace Tracer

variable {t : Tracer} (s : Session) (ht : touched t.context)

include ht

theorem monitor_suspend : Monitor.Moves touched forgets s.monitor (t.suspend s).2.monitor := by
  rw [t.suspend_eq]
  exact (s.calm_flush.monitor_moves.trans (Monitor.moves_switchKinds _ ht _ false)).trans
    (t.quieted s).counts_closeDelivery.monitor_moves

theorem monitor_resume : Monitor.Moves touched forgets s.monitor (t.resume s).2.monitor :=
  s.counts_openDelivery.monitor_moves.trans (Monitor.moves_switchKinds _ ht _ true)

theorem monitor_pause (begin : Bool) :
    Monitor.Moves touched forgets s.monitor (t.pause s begin).2.2.monitor := by
  unfold pause
  split
  · exact monitor_suspend s ht
  · exact monitor_resume s ht
  · exact .refl

theorem monitor_start (source : BufferSource) (callback : Nat) :
    Monitor.Moves touched forgets s.monitor (t.start s source callback).2.2.monitor := by
  let opened := { s with source }.setCallback t.device (some callback)
  rw [start_eq]
  cases t.state with
  | uninitialized | initialized =>
    exact opened.counts_addTrace.monitor_moves.trans
      opened.addTrace.counts_openDelivery.monitor_moves
  | paused => exact monitor_resume opened ht
  | started | stopped => exact .refl

theorem monitor_retire (hforgets : forgets) :
    Monitor.Moves touched forgets s.monitor (t.retire s).2.monitor := by
  let cleared := (s.forgetKinds t.context).setCallback t.device none
  exact .head (.forget hforgets ht) cleared.counts_removeTrace.monitor_moves

theorem monitor_stop (hforgets : forgets) :
    Monitor.Moves touched forgets s.monitor (t.stop s).2.monitor := by
  unfold stop
  cases t.state with
  | started =>
    exact (monitor_suspend s ht).trans
      (monitor_retire (t := (t.suspend s).1) (t.suspend s).2 ht hforgets)
  | paused => exact monitor_retire s ht hforgets
  | uninitialized | initialized | stopped => exact .refl

end Tracer
end Monitors

namespace System

variable {sys : System}

/-- The context of which an operation may switch kinds, or have them forgotten. -/
def contextOf? (sys : System) : Operation → Option ContextHandle
  | .prepare index | .start index .. | .pause index _ | .stop index | .drop index
  | .switchSet index .. | .switchCategories index .. => (sys.tracer? index).map Tracer.context
  | .switchKindsOf context .. | .switchCategoriesOf context .. | .forget context => some context
  | _ => none

/-- Whatever an operation does to the monitor, it does in its context. -/
theorem monitor_step (sys : System) (op : Operation) :
    Monitor.Moves (fun c => sys.contextOf? op = some c) (op.forgets = true) sys.session.monitor
      (sys.step op).session.monitor := by
  have hcommand {index : Nat} {operation : Tracer → Session → Bool × Tracer × Session}
      (hsome : ∀ t, sys.tracer? index = some t → Monitor.Moves
        (fun c => sys.contextOf? op = some c) (op.forgets = true) sys.session.monitor
        (operation t sys.session).2.2.monitor) :
      Monitor.Moves (fun c => sys.contextOf? op = some c) (op.forgets = true) sys.session.monitor
        (sys.command index operation).2.session.monitor := by
    cases ht : sys.tracer? index with
    | none =>
      rw [command_none ht]
    | some t =>
      rw [command_some ht]
      exact hsome t ht
  have hserve {index : Nat} {effect : Tracer → Session → Session}
      (hsome : ∀ t, sys.tracer? index = some t → Monitor.Moves
        (fun c => sys.contextOf? op = some c) (op.forgets = true) sys.session.monitor
        (effect t sys.session).monitor) :
      Monitor.Moves (fun c => sys.contextOf? op = some c) (op.forgets = true) sys.session.monitor
        (sys.serve index effect).session.monitor := by
    unfold serve
    cases ht : sys.tracer? index with
    | none => exact .refl
    | some t => exact hsome t ht
  by_cases hcalm : op.isCalm
  · obtain ⟨s', hs', hstep⟩ := sys.step_calm hcalm
    rw [hstep]
    exact hs'.monitor_moves
  · cases op with
    | register device globalId context =>
      dsimp only [step, perform]
      split <;> exact .refl
    | prepare index => exact hcommand fun _ _ => .refl
    | start index source callback =>
      exact hcommand fun t ht => Tracer.monitor_start _ (by simp [contextOf?, ht]) source callback
    | pause index begin =>
      exact hcommand fun t ht => Tracer.monitor_pause _ (by simp [contextOf?, ht]) begin
    | stop index =>
      exact hcommand fun t ht => Tracer.monitor_stop _ (by simp [contextOf?, ht]) rfl
    | drop index =>
      show Monitor.Moves _ _ _ (sys.dropTracer index).2.session.monitor
      unfold dropTracer
      cases ht : sys.tracer? index with
      | none => exact .refl
      | some t =>
        have htouched : sys.contextOf? (.drop index) = some t.context := by simp [contextOf?, ht]
        dsimp only [Tracer.dispose]
        cases t.state with
        | started | paused => exact Tracer.monitor_stop _ htouched rfl
        | uninitialized | initialized | stopped => exact .refl
    | switchSet index set enable =>
      exact hserve fun t ht =>
        Monitor.moves_switchKinds _ (by simp [contextOf?, ht]) set.kinds enable
    | switchCategories index flags enable =>
      exact hserve fun t ht =>
        Monitor.moves_switchCategories _ (by simp [contextOf?, ht]) flags enable
    | switchKindsOf context kinds enable =>
      have htouched : sys.contextOf? (.switchKindsOf context kinds enable) = some context := rfl
      dsimp only [step, perform, owned]
      split
      · exact Monitor.moves_switchKinds _ htouched kinds enable
      · exact .refl
    | switchCategoriesOf context flags enable =>
      have htouched : sys.contextOf? (.switchCategoriesOf context flags enable) = some context :=
        rfl
      dsimp only [step, perform, owned]
      split
      · exact Monitor.moves_switchCategories _ htouched flags enable
      · exact .refl
    | forget context =>
      dsimp only [step, perform, owned]
      split
      · exact .single (.forget rfl rfl)
      · exact .refl
    | release => exact .refl
    | _ => exact absurd rfl hcalm

theorem valid_run (hsys : sys.session.monitor.Valid) (ops : List Operation) :
    (sys.run ops).session.monitor.Valid :=
  run_keeps_along (P := fun a => a.session.monitor.Valid) (Q := fun _ _ => True)
    (fun a op ha _ => (a.monitor_step op).valid ha) hsys ops fun _ _ => trivial

theorem truthful_run (hsys : sys.session.monitor.Truthful) (ops : List Operation)
    (hops : ∀ op ∈ ops, op.forgets = false) : (sys.run ops).session.monitor.Truthful :=
  run_keeps_along (P := fun a => a.session.monitor.Truthful) (Q := fun _ op => op.forgets = false)
    (fun a op ha hop => (a.monitor_step op).truthful (by simp [hop]) ha) hsys ops
    fun _ hentry => hops _ (mem_of_mem_trail hentry)

/-- Operations in other contexts leave the record of a context as it is. -/
theorem contains_run {c : ContextHandle} (ops : List Operation)
    (hops : ∀ entry ∈ sys.trail ops, entry.1.contextOf? entry.2 ≠ some c) (k : Kind) :
    (sys.run ops).session.monitor.enabled.contains c k =
      sys.session.monitor.enabled.contains c k := by
  revert k
  refine run_keeps_along (P := fun a => ∀ k, a.session.monitor.enabled.contains c k =
      sys.session.monitor.enabled.contains c k) (Q := fun a op => a.contextOf? op ≠ some c)
    (fun a op ha hop k => ?_) (fun _ => rfl) ops hops
  exact ((a.monitor_step op).contains_eq hop k).trans (ha k)

/-- The record of a context keeps agreeing with the client as long as the context is not forgotten.
-/
theorem agrees_run {c : ContextHandle} (hsys : sys.session.monitor.Agrees c) (ops : List Operation)
    (hops : ∀ entry ∈ sys.trail ops, entry.2.forgets → entry.1.contextOf? entry.2 ≠ some c) :
    (sys.run ops).session.monitor.Agrees c :=
  run_keeps_along (P := fun a => a.session.monitor.Agrees c)
    (Q := fun a op => op.forgets → a.contextOf? op ≠ some c)
    (fun a op ha hop => (a.monitor_step op).agrees hop ha) hsys ops hops

theorem truthful_of_build {config : SessionConfig} {client : DeviceClient} {session : Session}
    (h : Session.build config client = .ok session) (hempty : client.enabledKinds = .empty) :
    session.monitor.Truthful := by
  rw [build_eq h]
  refine ⟨⟨hempty, ?orderly⟩, fun c k => ?agrees, fun _ => rfl⟩
  case orderly =>
    intro before call failure after heq
    exact absurd heq (by simp)
  case agrees =>
    show false = client.enabledKinds.contains c k
    rw [hempty, EnabledKinds.contains_empty]

/-- With any client, whatever calls it refuses, as long as no trace is stopped or dropped and no
context is forgotten: a kind is recorded as enabled if and only if the client has it enabled; each
call that enables a kind finds it disabled at the client and each call that disables one finds it
enabled, and neither is made for `invalid`; and the enabled kinds of a context are listed in
increasing order. What the client has enabled at a call is told by the calls before it that it did
not refuse. -/
theorem recorded_iff_enabled {config : SessionConfig} {client : DeviceClient} {session : Session}
    (hbuild : Session.build config client = .ok session) (hempty : client.enabledKinds = .empty)
    (ops : List Operation) (hops : ∀ op ∈ ops, op.forgets = false) :
    let s := (({ session } : System).run ops).session
    let atClient := s.gateway.client.enabledKinds
    (∀ c k, s.monitor.enabled.contains c k = atClient.contains c k) ∧
      atClient = enabledBy s.gateway.journal ∧
      (∀ before call failure after, s.gateway.journal = before ++ .call call failure :: after →
        match call with
        | .enableKind c k => k ≠ .invalid ∧ (enabledBy before).contains c k = false
        | .disableKind c k => k ≠ .invalid ∧ (enabledBy before).contains c k = true
        | _ => True) ∧
      ∀ c, (∀ k, k ∈ s.enabledKinds c ↔ atClient.contains c k = true) ∧
        (s.enabledKinds c).Pairwise fun kind other => kind.code < other.code := by
  intro s atClient
  have htruthful : s.monitor.Truthful := truthful_run (truthful_of_build hbuild hempty) ops hops
  refine ⟨htruthful.agrees, htruthful.traced.enabled, fun before call failure after heq => ?calls,
    fun c => ⟨fun k => ?listed, ?increasing⟩⟩
  case calls =>
    have hswitches := htruthful.traced.orderly before call failure after heq
    cases call <;> exact hswitches
  case listed =>
    rw [Session.enabledKinds, EnabledKinds.mem_kinds, htruthful.agrees c k]
    rfl
  case increasing => exact Kind.all_increasing.filter _

/-- A client that refuses one of three kinds, of which another is listed twice. -/
theorem recorded_iff_enabled_refused :
    ∃ session : Session, Session.build {} (DeviceClient.willing.withFaults ⟨[], [.kernel]⟩) =
        .ok session ∧
      let s := (({ session } : System).run [.register 0 0 ⟨1⟩,
        .switchSet 0 ⟨"custom", [.memcpy, .kernel, .memcpy, .invalid, .driver]⟩ true,
        .start 0 .session 0, .pause 0 true, .pause 0 false]).session
      s.enabledKinds ⟨1⟩ = [.memcpy] ∧
        s.gateway.client.enabledKinds.contains ⟨1⟩ .memcpy = true ∧
        s.gateway.client.enabledKinds.contains ⟨1⟩ .kernel = false := by
  obtain ⟨session, hbuild⟩ : ∃ session : Session,
      Session.build {} (DeviceClient.willing.withFaults ⟨[], [.kernel]⟩) = .ok session := ⟨_, rfl⟩
  refine ⟨session, hbuild, ?_⟩
  obtain ⟨hsame, -, -, -⟩ := recorded_iff_enabled hbuild rfl [.register 0 0 ⟨1⟩,
    .switchSet 0 ⟨"custom", [.memcpy, .kernel, .memcpy, .invalid, .driver]⟩ true,
    .start 0 .session 0, .pause 0 true, .pause 0 false] (by decide)
  dsimp only at hsame ⊢
  rw [← hsame, ← hsame, build_eq hbuild]
  decide +kernel

end System
end DeviceTrace
