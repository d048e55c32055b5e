import DeviceTrace.Proofs.Session.Quiet
import Mathlib.Data.List.Induction

/-!
# What an operation consists of

Every operation of a run is made of a few moves: the session does a quiet step, or a tracer goes
from one state of its trace to the next, which is all that changes the counts and the devices. Apart
from these, devices are registered and kinds forgotten. An invariant of all runs is one that every
move keeps.
-/

namespace DeviceTrace

/-! ## Moves of a tracer -/

/-- Whether a trace has a share of the client. -/
def TraceState.isActive : TraceState → Bool
  | .started | .paused => true
  | .uninitialized | .initialized | .stopped => false

/-- A tracer takes one step through the states of its trace. -/
inductive TraceMove (t : Tracer) (s : Session) : Tracer → Session → Prop
  | prepare : t.state = .uninitialized → TraceMove t s { t with state := .initialized } s
  | begin (source : BufferSource) (callback : Nat) : t.state = .initialized →
      TraceMove t s { t with state := .started }
        ({ s with source }.setCallback t.device (some callback)).addTrace.openDelivery
  /-- A trace that runs or is paused gets another source and another callback. -/
  | install (source : BufferSource) (callback : Nat) : t.state = .started ∨ t.state = .paused →
      TraceMove t s t ({ s with source }.setCallback t.device (some callback))
  | suspend : t.state = .started → TraceMove t s (t.suspend s).1 (t.suspend s).2
  | resume : t.state = .paused → TraceMove t s (t.resume s).1 (t.resume s).2
  | retire : t.state = .paused → TraceMove t s (t.retire s).1 (t.retire s).2
  /-- A trace that never started is stopped. -/
  | discard : t.state = .uninitialized ∨ t.state = .initialized →
      TraceMove t s { t with state := .stopped } s

/-- Moves of one tracer one after the other. -/
inductive TraceMoves (t : Tracer) (s : Session) : Tracer → Session → Prop
  | refl : TraceMoves t s t s
  | tail {t' t'' : Tracer} {s' s'' : Session} :
      TraceMoves t s t' s' → TraceMove t' s' t'' s'' → TraceMoves t s t'' s''

namespace Tracer

/-- The session when the trace is suspended, short of ending delivery. -/
def quieted (t : Tracer) (s : Session) : Session :=
  (s.flush.2.switchKinds t.context (s.flush.2.enabledKinds t.context) false).2

theorem suspend_eq (t : Tracer) (s : Session) : (t.suspend s).2 = (t.quieted s).closeDelivery := rfl

theorem quiets_quieted (t : Tracer) (s : Session) : s.Quiets (t.quieted s) :=
  .tail (.single (.calm s.calm_flush)) (.switch t.context (s.flush.2.enabledKinds t.context) false)

theorem prepare_moves (t : Tracer) (s : Session) : TraceMoves t s t.prepare.2 s := by
  unfold prepare
  cases hstate : t.state with
  | uninitialized => exact .tail .refl (.prepare hstate)
  | initialized | started | paused | stopped => exact .refl

theorem pause_moves (t : Tracer) (s : Session) (begin : Bool) :
    TraceMoves t s (t.pause s begin).2.1 (t.pause s begin).2.2 := by
  unfold pause
  split
  · rename_i hstate
    exact .tail .refl (.suspend hstate)
  · rename_i hstate
    exact .tail .refl (.resume hstate)
  · exact .refl

theorem stop_moves (t : Tracer) (s : Session) : TraceMoves t s (t.stop s).1 (t.stop s).2 := by
  unfold stop
  cases hstate : t.state with
  | started => exact .tail (.tail .refl (.suspend hstate)) (.retire rfl)
  | paused => exact .tail .refl (.retire hstate)
  | uninitialized => exact .tail .refl (.discard (.inl hstate))
  | initialized => exact .tail .refl (.discard (.inr hstate))
  | stopped => exact .refl

theorem isActive_stop (t : Tracer) (s : Session) : (t.stop s).1.state.isActive = false := by
  unfold stop
  cases hstate : t.state with
  | started | paused | uninitialized | initialized => rfl
  | stopped => rw [hstate]; rfl

/-- Preparing the trace first makes no difference to how it starts. -/
theorem start_eq (t : Tracer) (s : Session) (source : BufferSource) (callback : Nat) :
    t.start s source callback =
      let opened := { s with source }.setCallback t.device (some callback)
      match t.state with
      | .uninitialized | .initialized =>
        (true, { t with state := .started }, opened.addTrace.openDelivery)
      | .paused => (true, t.resume opened)
      | .started => (true, t, opened)
      | .stopped => (false, t, s) := by
  unfold start prepare
  cases hstate : t.state <;> simp [hstate]

theorem start_moves (t : Tracer) (s : Session) (source : BufferSource) (callback : Nat) :
    TraceMoves t s (t.start s source callback).2.1 (t.start s source callback).2.2 := by
  rw [start_eq]
  cases hstate : t.state with
  | uninitialized => exact .tail (.tail .refl (.prepare hstate)) (.begin source callback rfl)
  | initialized => exact .tail .refl (.begin source callback hstate)
  | started => exact .tail .refl (.install source callback (.inl hstate))
  | paused => exact .tail (.tail .refl (.install source callback (.inr hstate))) (.resume hstate)
  | stopped => exact .refl

end Tracer

theorem TraceMove.makes {t t' : Tracer} {s s' : Session} (h : TraceMove t s t' s') :
    ∃ calls, s.gateway.Makes calls s'.gateway := by
  cases h with
  | prepare _ | install _ _ _ | discard _ => exact ⟨[], .refl⟩
  | begin source callback _ =>
    let opened := { s with source }.setCallback t.device (some callback)
    obtain ⟨first, hfirst, -⟩ := opened.counts_addTrace.makes
    obtain ⟨more, hmore, -⟩ := opened.addTrace.counts_openDelivery.makes
    exact ⟨first ++ more, Gateway.Makes.trans hfirst hmore⟩
  | suspend _ =>
    obtain ⟨first, hfirst, -⟩ := (t.quiets_quieted s).frame.1
    obtain ⟨more, hmore, -⟩ := (t.quieted s).counts_closeDelivery.makes
    exact ⟨first ++ more, hfirst.trans hmore⟩
  | resume _ =>
    obtain ⟨first, hfirst, -⟩ := s.counts_openDelivery.makes
    obtain ⟨more, hmore, -⟩ :=
      Session.Quiet.frame (.switch (s := s.openDelivery) t.context t.pausedKinds true) |>.1
    exact ⟨first ++ more, hfirst.trans hmore⟩
  | retire _ =>
    obtain ⟨calls, hcalls, -⟩ :=
      ((s.forgetKinds t.context).setCallback t.device none).counts_removeTrace.makes
    exact ⟨calls, hcalls⟩

/-! ## Moves of a system -/

/-- Whether an operation leaves all tracers, all devices and the recorded kinds as they are. -/
def Operation.isCalm : Operation → Bool
  | .flush _ | .clock _ | .noteModule .. | .supply | .takeBack _ | .supplyThroughClient
  | .takeBackThroughClient _ | .intercept .. | .refresh .. => true
  | _ => false

/-- Whether an operation leaves all tracers and all devices as they are. -/
def Operation.isQuiet : Operation → Bool
  | .register .. | .prepare _ | .start .. | .pause .. | .stop _ | .drop _ | .forget _ | .release =>
    false
  | _ => true

namespace System

variable {sys : System} {index : Nat} {t : Tracer}

theorem tracer?_eq_some : sys.tracer? index = some t ↔ sys.tracers[index]? = some (some t) := by
  simp [tracer?, Option.join_eq_some_iff]

/-- The system when a tracer and the session have changed. -/
def withTracer (sys : System) (index : Nat) (t : Tracer) (s : Session) : System :=
  { sys with session := s, tracers := sys.tracers.set index (some t) }

theorem tracer?_withTracer (h : sys.tracer? index = some t) (t' : Tracer) (s' : Session) (j : Nat) :
    (sys.withTracer index t' s').tracer? j = if index = j then some t' else sys.tracer? j := by
  have hlt := (List.getElem?_eq_some_iff.mp (tracer?_eq_some.mp h)).1
  simp only [tracer?, withTracer, List.getElem?_set, hlt, if_true]
  split <;> rfl

theorem withTracer_withTracer (t t' : Tracer) (s s' : Session) :
    (sys.withTracer index t s).withTracer index t' s' = sys.withTracer index t' s' := by
  simp [withTracer]

theorem withTracer_self (h : sys.tracer? index = some t) :
    sys.withTracer index t sys.session = sys := by
  obtain ⟨hlt, hget⟩ := List.getElem?_eq_some_iff.mp (tracer?_eq_some.mp h)
  simp [withTracer, ← hget]

/-- What happens to a system short of registering a device and forgetting kinds. -/
inductive Move (sys : System) : System → Prop
  | trace {index : Nat} {t t' : Tracer} {s' : Session} : sys.tracer? index = some t →
      TraceMove t sys.session t' s' → Move sys (sys.withTracer index t' s')
  /-- A tracer without a share is let go of. -/
  | lapse {index : Nat} {t : Tracer} : sys.tracer? index = some t → t.state.isActive = false →
      Move sys { sys with tracers := sys.tracers.set index none }
  | quiet {s' : Session} : sys.session.Quiet s' → Move sys { sys with session := s' }
  | release : Move sys { sys with held := false }

/-- Moves one after the other. -/
abbrev Moves : System → System → Prop := Relation.ReflTransGen Move

theorem moves_of_trace (h : sys.tracer? index = some t) {t' : Tracer} {s' : Session}
    (hmoves : TraceMoves t sys.session t' s') : sys.Moves (sys.withTracer index t' s') := by
  induction hmoves with
  | refl =>
    rw [withTracer_self h]
  | @tail t' t'' s' s'' _ hmove ih =>
    have hget := tracer?_withTracer h t' s' index
    rw [if_pos rfl] at hget
    have hlast := Move.trace hget hmove
    rw [withTracer_withTracer] at hlast
    exact ih.tail hlast

theorem moves_of_quiets {s' : Session} (h : sys.session.Quiets s') :
    sys.Moves { sys with session := s' } := by
  induction h with
  | refl => exact .refl
  | tail _ hquiet ih => exact ih.tail (.quiet hquiet)

theorem command_some (h : sys.tracer? index = some t)
    (operation : Tracer → Session → Bool × Tracer × Session) :
    sys.command index operation = (some (operation t sys.session).1,
      sys.withTracer index (operation t sys.session).2.1 (operation t sys.session).2.2) := by
  unfold command onTracer?
  rw [h]
  rfl

theorem command_none (h : sys.tracer? index = none)
    (operation : Tracer → Session → Bool × Tracer × Session) :
    sys.command index operation = (none, sys) := by
  unfold command onTracer?
  rw [h]
  rfl

theorem moves_command (operation : Tracer → Session → Bool × Tracer × Session)
    (h : ∀ t s, TraceMoves t s (operation t s).2.1 (operation t s).2.2) :
    sys.Moves (sys.command index operation).2 := by
  cases ht : sys.tracer? index with
  | none =>
    rw [command_none ht]
  | some t =>
    rw [command_some ht]
    exact moves_of_trace ht (h t sys.session)

theorem quiets_serve (effect : Tracer → Session → Session)
    (h : ∀ t s, Session.Quiets s (effect t s)) :
    ∃ s', sys.session.Quiets s' ∧ sys.serve index effect = { sys with session := s' } := by
  unfold serve
  cases ht : sys.tracer? index with
  | none => exact ⟨sys.session, .refl, rfl⟩
  | some t => exact ⟨effect t sys.session, h t sys.session, rfl⟩

theorem quiets_owned (effect : Session → Session) (h : ∀ s, Session.Quiets s (effect s)) :
    ∃ s', sys.session.Quiets s' ∧ sys.owned effect = { sys with session := s' } := by
  unfold owned
  split
  · exact ⟨effect sys.session, h sys.session, rfl⟩
  · exact ⟨sys.session, .refl, rfl⟩

/-- A tracer is dropped after it is stopped, if it has a share, and without more ado if not. -/
theorem dropTracer_lapses (h : sys.tracer? index = some t) : ∃ sys' t',
    (sys' = sys ∨ sys' = sys.withTracer index (t.stop sys.session).1 (t.stop sys.session).2) ∧
      sys'.tracer? index = some t' ∧ t'.state.isActive = false ∧
      (sys.dropTracer index).2 = { sys' with tracers := sys'.tracers.set index none } := by
  have hget := tracer?_withTracer h (t.stop sys.session).1 (t.stop sys.session).2 index
  rw [if_pos rfl] at hget
  unfold dropTracer
  rw [h]
  dsimp only [Tracer.dispose]
  cases hstate : t.state with
  | started | paused =>
    exact ⟨_, _, .inr rfl, hget, t.isActive_stop sys.session, by simp [withTracer]⟩
  | uninitialized | initialized | stopped =>
    exact ⟨sys, t, .inl rfl, h, by rw [hstate]; rfl, rfl⟩

theorem moves_dropTracer : sys.Moves (sys.dropTracer index).2 := by
  cases ht : sys.tracer? index with
  | none =>
    have hsame : (sys.dropTracer index).2 = sys := by simp [dropTracer, ht]
    rw [hsame]
  | some t =>
    obtain ⟨sys', t', hsys', hget, hinactive, hdrop⟩ := dropTracer_lapses ht
    rw [hdrop]
    refine Relation.ReflTransGen.tail ?_ (.lapse hget hinactive)
    rcases hsys' with rfl | rfl
    · exact .refl
    · exact moves_of_trace ht (t.stop_moves sys.session)

/-- Operations of this kind do a calm step. -/
theorem step_calm (sys : System) {op : Operation} (h : op.isCalm) :
    ∃ s', sys.session.Calm s' ∧ sys.step op = { sys with session := s' } := by
  have hserve {index : Nat} {effect : Tracer → Session → Session}
      (heffect : ∀ t s, Session.Calm s (effect t s)) :
      ∃ s', sys.session.Calm s' ∧ sys.serve index effect = { sys with session := s' } := by
    unfold serve
    cases sys.tracer? index with
    | none => exact ⟨sys.session, .refl _, rfl⟩
    | some t => exact ⟨effect t sys.session, heffect t sys.session, rfl⟩
  have howned (effect : Session → Session) (heffect : ∀ s, Session.Calm s (effect s)) :
      ∃ s', sys.session.Calm s' ∧ sys.owned effect = { sys with session := s' } := by
    unfold owned
    split
    · exact ⟨effect sys.session, heffect sys.session, rfl⟩
    · exact ⟨sys.session, .refl _, rfl⟩
  cases op with
  | flush index => exact hserve fun _ s => s.calm_flush
  | clock index => exact hserve fun _ s => Session.Calm.ask s rfl
  | noteModule event id image =>
    exact howned (·.noteModule event id image) fun s => s.calm_noteModule event id image
  | supply => exact howned _ fun s => s.calm_supply
  | takeBack c => exact howned _ fun s => s.calm_takeBack c
  | supplyThroughClient =>
    dsimp only [step, perform, supplyThroughClient]
    split
    · exact ⟨_, sys.session.calm_supplyThroughClient, rfl⟩
    · exact ⟨_, .refl _, rfl⟩
  | takeBackThroughClient c =>
    dsimp only [step, perform, takeBackThroughClient]
    split
    · exact ⟨_, sys.session.calm_takeBackThroughClient c, rfl⟩
    · exact ⟨_, .refl _, rfl⟩
  | intercept stack site function id =>
    exact ⟨_, sys.session.calm_onCall stack site function id, rfl⟩
  | refresh queue timestamp dropped =>
    exact ⟨_, Session.Calm.refresh sys.session queue timestamp dropped, rfl⟩
  | _ => cases h

/-- Operations of this kind do quiet steps only. -/
theorem step_quiet (sys : System) {op : Operation} (h : op.isQuiet) :
    ∃ s', sys.session.Quiets s' ∧ sys.step op = { sys with session := s' } := by
  by_cases hcalm : op.isCalm
  · obtain ⟨s', hs', hstep⟩ := sys.step_calm hcalm
    exact ⟨s', .single (.calm hs'), hstep⟩
  · cases op with
    | switchSet index set enable =>
      exact quiets_serve _ fun t s => .single (.switch t.context set.kinds enable)
    | switchCategories index flags enable =>
      exact quiets_serve _ fun t s => s.quiets_switchCategories t.context flags enable
    | switchKindsOf context kinds enable =>
      exact quiets_owned _ fun s => .single (.switch context kinds enable)
    | switchCategoriesOf context flags enable =>
      exact quiets_owned _ fun s => s.quiets_switchCategories context flags enable
    | _ => first | exact absurd rfl hcalm | cases h

/-- What an operation does to a system: it is made of moves, or it registers a device, or it has the
kinds of a context forgotten. -/
theorem step_cases (sys : System) (op : Operation) :
    sys.Moves (sys.step op) ∨
    (∃ device globalId context, op = .register device globalId context ∧
      sys.step op = sys.register device globalId context) ∨
    ∃ context, op = .forget context ∧
      sys.step op = { sys with session := sys.session.forgetKinds context } := by
  by_cases hquiet : op.isQuiet
  · obtain ⟨s', hs', hstep⟩ := sys.step_quiet hquiet
    rw [hstep]
    exact .inl (moves_of_quiets hs')
  · cases op with
    | register device globalId context =>
      cases hheld : sys.held with
      | true => exact .inr (.inl ⟨device, globalId, context, rfl, by simp [step, perform, hheld]⟩)
      | false =>
        have hsame : sys.step (.register device globalId context) = sys := by
          simp [step, perform, hheld]
        exact .inl (by rw [hsame])
    | forget context =>
      cases hheld : sys.held with
      | true => exact .inr (.inr ⟨context, rfl, by simp [step, perform, owned, hheld]⟩)
      | false =>
        have hsame : sys.step (.forget context) = sys := by simp [step, perform, owned, hheld]
        exact .inl (by rw [hsame])
    | prepare index => exact .inl (moves_command _ fun t s => t.prepare_moves s)
    | start index source callback =>
      exact .inl (moves_command _ fun t s => t.start_moves s source callback)
    | pause index begin => exact .inl (moves_command _ fun t s => t.pause_moves s begin)
    | stop index => exact .inl (moves_command _ fun t s => t.stop_moves s)
    | drop index => exact .inl moves_dropTracer
    | release => exact .inl (.single .release)
    | _ => exact absurd rfl hquiet

theorem Moves.keeps {P : System → Prop} {sys' : System} (h : sys.Moves sys')
    (hmove : ∀ a b, P a → Move a b → P b) (hsys : P sys) : P sys' := by
  induction h with
  | refl => exact hsys
  | tail _ hlast ih => exact hmove _ _ ih hlast

/-- An invariant of all runs: it holds at first, and moves, registering a device and forgetting
kinds keep it. -/
theorem run_keeps {P : System → Prop} (hmove : ∀ a b, P a → Move a b → P b)
    (hregister : ∀ a device globalId context, P a → P (register a device globalId context))
    (hforget : ∀ a context, P a → P { a with session := a.session.forgetKinds context })
    (hsys : P sys) (ops : List Operation) : P (sys.run ops) := by
  induction ops using List.reverseRecOn with
  | nil => exact hsys
  | append_singleton ops op ih =>
    rw [run_concat]
    rcases step_cases (sys.run ops) op with h | ⟨device, globalId, context, -, h⟩ | ⟨context, -, h⟩
    · exact h.keeps hmove ih
    · rw [h]
      exact hregister _ device globalId context ih
    · rw [h]
      exact hforget _ context ih

/-- Whatever a run does to its client, it does by calls. -/
theorem run_makes (sys : System) (ops : List Operation) :
    ∃ calls, sys.session.gateway.Makes calls (sys.run ops).session.gateway := by
  refine run_keeps (P := fun a => ∃ calls, sys.session.gateway.Makes calls a.session.gateway)
    ?_ (fun _ _ _ _ ha => ha) (fun _ _ ha => ha) ⟨[], .refl⟩ ops
  intro a b ⟨calls, hcalls⟩ hmove
  cases hmove with
  | trace _ htrace =>
    obtain ⟨more, hmore⟩ := htrace.makes
    exact ⟨calls ++ more, hcalls.trans hmore⟩
  | lapse _ _ | release => exact ⟨calls, hcalls⟩
  | quiet hquiet =>
    obtain ⟨more, hmore, -⟩ := hquiet.frame.1
    exact ⟨calls ++ more, hcalls.trans hmore⟩

end System
end DeviceTrace
