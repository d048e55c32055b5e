import Mathlib.Data.List.Basic
import Mathlib.Data.List.Induction
import DeviceTrace.Proofs.Session.Quiet

/-!
# A worker's list of ids and the client's stack

A worker keeps its own list of the ids that it has pushed. Whatever callbacks it gets, and whatever
the client refuses, the list is as long as the worker's successful pushes less the pops it has asked
for, so the worker never takes away what was on the client's stack before it. As long as no pop
fails, the list is the upper part of that stack. A pop that fails shortens the list alone.
-/

namespace DeviceTrace

/-- A callback of the API to a worker: a call that is entered or left, the id of the worker's
operation at that moment, and the filter that chooses the functions that matter. -/
structure ApiCallback where
  filter : CallFilter
  site : ApiSite
  function : ApiFunction
  id : Option CorrelationId

/-- A worker's list of ids, and the gateway to the client that keeps the stack. -/
structure Correlator where
  stack : CorrelationStack := {}
  gateway : Gateway

namespace Correlator

def step (c : Correlator) (callback : ApiCallback) : Correlator :=
  let (stack, gateway) :=
    c.stack.onCall callback.filter callback.site callback.function callback.id c.gateway
  { stack, gateway }

def run (c : Correlator) (callbacks : List ApiCallback) : Correlator := callbacks.foldl step c

/-- The correlation ids that the client holds, the latest first. -/
def correlation (c : Correlator) : List UInt64 := c.gateway.client.correlation

theorem run_append (c : Correlator) (callbacks more : List ApiCallback) :
    c.run (callbacks ++ more) = (c.run callbacks).run more := List.foldl_append

end Correlator

/-! ## One push and one pop -/

/-- The client does not refuse the call, if it is made now. -/
def DeviceClient.wouldAccept (c : DeviceClient) (call : ClientCall) : Bool :=
  (c.refuses c.calls call).isNone

theorem DeviceClient.refuses_eq_some {c : DeviceClient} {call : ClientCall}
    (h : c.wouldAccept call = false) : ∃ message, c.refuses c.calls call = some message :=
  Option.isSome_iff_exists.mp (by simpa [wouldAccept] using h)

namespace CorrelationStack

variable (s : CorrelationStack) {g : Gateway} {id first : CorrelationId} {rest : List CorrelationId}

theorem push_accepted (h : g.client.wouldAccept (.pushCorrelation id)) :
    (s.push id g).1 = ⟨id :: s.pushed⟩ ∧
      (s.push id g).2.client.correlation = id.raw :: g.client.correlation ∧
      (s.push id g).2.journal = g.journal ++ [.call (.pushCorrelation id) none] := by
  unfold push Gateway.attempt
  rw [Gateway.ask_eq, DeviceClient.answer, Option.isNone_iff_eq_none.mp h]
  exact ⟨rfl, rfl, rfl⟩

theorem push_refused (h : g.client.wouldAccept (.pushCorrelation id) = false) :
    (s.push id g).1 = s ∧ (s.push id g).2.client.correlation = g.client.correlation ∧
      ∃ error, (s.push id g).2.journal =
        g.journal ++ ClientCall.events (.pushCorrelation id) (.error error) := by
  obtain ⟨message, hmessage⟩ := DeviceClient.refuses_eq_some h
  unfold push Gateway.attempt
  rw [Gateway.ask_eq, DeviceClient.answer, hmessage]
  exact ⟨rfl, rfl, _, rfl⟩

/-- A wrong id is only reported. -/
theorem client_compare (expected : CorrelationId) (popped : UInt64) (g : Gateway) :
    (compare expected popped g).client = g.client := by
  unfold compare
  split <;> rfl

theorem journal_compare (expected : CorrelationId) (popped : UInt64) (g : Gateway) :
    ∃ reports, (compare expected popped g).journal = g.journal ++ reports ∧
      ∀ e ∈ reports, e.call? = none := by
  unfold compare
  split
  · exact ⟨[], by simp, by simp⟩
  · exact ⟨_, rfl, by simp [Event.call?]⟩

theorem pop_nil (h : s.pushed = []) (expected : CorrelationId) : s.pop expected g = (s, g) := by
  unfold pop
  rw [h]

theorem pop_accepted {popped : UInt64} {below : List UInt64} (hpushed : s.pushed = first :: rest)
    (hcorrelation : g.client.correlation = popped :: below)
    (h : g.client.wouldAccept .popCorrelation) (expected : CorrelationId) :
    (s.pop expected g).1 = ⟨rest⟩ ∧ (s.pop expected g).2.client.correlation = below ∧
      ∃ reports, (s.pop expected g).2.journal =
          g.journal ++ .call .popCorrelation none :: reports ∧ ∀ e ∈ reports, e.call? = none := by
  have hasked : g.client.answer .popCorrelation = (.ok popped,
      { g.client with calls := g.client.calls + 1, correlation := below }) := by
    rw [DeviceClient.answer, Option.isNone_iff_eq_none.mp h]
    simp only [DeviceClient.accept, hcorrelation]
  unfold pop
  rw [hpushed]
  dsimp only
  rw [Gateway.ask_eq, hasked]
  obtain ⟨reports, hreports, hcalls⟩ := journal_compare expected popped
    { client := { g.client with calls := g.client.calls + 1, correlation := below },
      journal := g.journal ++ [.call .popCorrelation none] }
  refine ⟨rfl, ?_, reports, ?_, hcalls⟩
  · simp only [Except.toOption]
    rw [client_compare]
  · simpa [Except.toOption, ClientCall.events] using hreports

theorem pop_failed (hpushed : s.pushed = first :: rest)
    (h : g.client.wouldAccept .popCorrelation = false ∨ g.client.correlation = [])
    (expected : CorrelationId) :
    (s.pop expected g).1 = ⟨rest⟩ ∧
      (s.pop expected g).2.client.correlation = g.client.correlation ∧
      ∃ error, (s.pop expected g).2.journal =
        g.journal ++ ClientCall.events .popCorrelation (.error error) := by
  obtain ⟨error, hasked⟩ : ∃ error, g.client.answer .popCorrelation =
      (.error error, { g.client with calls := g.client.calls + 1 }) := by
    unfold DeviceClient.answer
    cases hrefuses : g.client.refuses g.client.calls .popCorrelation with
    | some message => exact ⟨_, rfl⟩
    | none =>
      have hempty : g.client.correlation = [] := by
        simpa [DeviceClient.wouldAccept, hrefuses] using h
      refine ⟨.client ClientCall.popCorrelation.function "stack empty", ?_⟩
      simp only [DeviceClient.accept, hempty]
  unfold pop
  rw [hpushed]
  dsimp only
  rw [Gateway.ask_eq, hasked]
  exact ⟨rfl, rfl, error, rfl⟩

end CorrelationStack

/-! ## One callback -/

namespace Correlator

variable (c : Correlator)

/-- What becomes of the worker's list at a callback. -/
def pushedAfter (callback : ApiCallback) : List CorrelationId :=
  match callback.id with
  | none => c.stack.pushed
  | some id =>
    if callback.filter.allows callback.function then
      match callback.site with
      | .enter => if c.gateway.client.wouldAccept (.pushCorrelation id) then id :: c.stack.pushed
        else c.stack.pushed
      | .exit => c.stack.pushed.tail
    else c.stack.pushed

/-- What a callback comes to: the events that it leaves in the journal, and the ids that the worker
and the client have after it. -/
inductive Turn : List Event → List CorrelationId → List UInt64 → Prop
  | pass : Turn [] c.stack.pushed c.correlation
  | push (id : CorrelationId) :
      Turn [.call (.pushCorrelation id) none] (id :: c.stack.pushed) (id.raw :: c.correlation)
  | refusedPush (id : CorrelationId) (error : TraceError) :
      Turn (ClientCall.events (.pushCorrelation id) (.error error)) c.stack.pushed c.correlation
  | pop {first : CorrelationId} {rest : List CorrelationId} {popped : UInt64} {below : List UInt64}
      {reports : List Event} : c.stack.pushed = first :: rest → c.correlation = popped :: below →
      (∀ e ∈ reports, e.call? = none) → Turn (.call .popCorrelation none :: reports) rest below
  | failedPop {first : CorrelationId} {rest : List CorrelationId} (error : TraceError) :
      c.stack.pushed = first :: rest →
      c.gateway.client.wouldAccept .popCorrelation = false ∨ c.correlation = [] →
      Turn (ClientCall.events .popCorrelation (.error error)) rest c.correlation

theorem turn_step (callback : ApiCallback) :
    ∃ events, (c.step callback).gateway.journal = c.gateway.journal ++ events ∧
      (c.step callback).stack.pushed = c.pushedAfter callback ∧
      c.Turn events (c.step callback).stack.pushed (c.step callback).correlation := by
  obtain ⟨filter, site, function, id⟩ := callback
  unfold step pushedAfter correlation CorrelationStack.onCall
  cases id with
  | none => exact ⟨[], by simp, rfl, .pass⟩
  | some id =>
    by_cases hallowed : filter.allows function
    case neg =>
      simp only [hallowed]
      exact ⟨[], by simp, rfl, .pass⟩
    simp only [hallowed, if_true]
    cases site with
    | enter =>
      cases haccepts : c.gateway.client.wouldAccept (.pushCorrelation id) with
      | true =>
        obtain ⟨hpushed, hheld, hjournal⟩ := c.stack.push_accepted haccepts
        exact ⟨_, hjournal, by simp [hpushed], by rw [hpushed, hheld]; exact .push id⟩
      | false =>
        obtain ⟨hpushed, hheld, error, hjournal⟩ := c.stack.push_refused haccepts
        exact ⟨_, hjournal, by simp [hpushed], by rw [hpushed, hheld]; exact .refusedPush id error⟩
    | exit =>
      cases hlist : c.stack.pushed with
      | nil =>
        dsimp only
        rw [c.stack.pop_nil hlist, hlist]
        exact ⟨[], by simp, rfl, hlist ▸ .pass⟩
      | cons first rest =>
        by_cases hfails : c.gateway.client.wouldAccept .popCorrelation = false ∨
            c.gateway.client.correlation = []
        · obtain ⟨hpushed, hheld, error, hjournal⟩ := c.stack.pop_failed hlist hfails id
          exact ⟨_, hjournal, by simp [hpushed],
            by rw [hpushed, hheld]; exact .failedPop error hlist hfails⟩
        · obtain ⟨haccepts, hne⟩ := not_or.mp hfails
          obtain ⟨popped, below, hcons⟩ := List.exists_cons_of_ne_nil hne
          obtain ⟨hpushed, hheld, reports, hjournal, hcalls⟩ :=
            c.stack.pop_accepted hlist hcons (by simpa using haccepts) id
          exact ⟨_, hjournal, by simp [hpushed],
            by rw [hpushed, hheld]; exact .pop hlist hcons hcalls⟩

end Correlator

/-! ## Counting pushes and pops -/

/-- The event is a push that the client has accepted. -/
def Event.isPush : Event → Bool
  | .call (.pushCorrelation _) none => true
  | _ => false

/-- The event is a pop, whether the client has accepted it or not. -/
def Event.isPop : Event → Bool
  | .call .popCorrelation _ => true
  | _ => false

def pushes (events : List Event) : Nat := events.countP Event.isPush

def pops (events : List Event) : Nat := events.countP Event.isPop

@[simp] theorem pushes_nil : pushes [] = 0 := rfl

@[simp] theorem pops_nil : pops [] = 0 := rfl

@[simp] theorem pushes_cons (event : Event) (events : List Event) :
    pushes (event :: events) = pushes events + if event.isPush then 1 else 0 := List.countP_cons

@[simp] theorem pops_cons (event : Event) (events : List Event) :
    pops (event :: events) = pops events + if event.isPop then 1 else 0 := List.countP_cons

@[simp] theorem pushes_append (events more : List Event) :
    pushes (events ++ more) = pushes events + pushes more := List.countP_append

@[simp] theorem pops_append (events more : List Event) :
    pops (events ++ more) = pops events + pops more := List.countP_append

theorem counts_of_reports {reports : List Event} (h : ∀ e ∈ reports, e.call? = none) :
    pushes reports = 0 ∧ pops reports = 0 := by
  have hcall {e : Event} (he : e ∈ reports) : e.isPush = false ∧ e.isPop = false := by
    cases e with
    | call call failure => cases h _ he
    | failure | dropped | module | records | request => exact ⟨rfl, rfl⟩
  constructor
  · exact List.countP_eq_zero.mpr fun e he => by simp [hcall he]
  · exact List.countP_eq_zero.mpr fun e he => by simp [hcall he]

namespace Correlator.Turn

variable {c : Correlator} {events : List Event} {pushed : List CorrelationId} {held : List UInt64}
  (h : c.Turn events pushed held)

include h

theorem counts : pushes events + c.stack.depth = pushed.length + pops events := by
  unfold CorrelationStack.depth
  cases h with
  | pass => simp
  | push id =>
    simp [Event.isPush, Event.isPop]
    omega
  | refusedPush id error => simp [ClientCall.events, Event.isPush, Event.isPop]
  | pop hlist _ hreports =>
    obtain ⟨hpushes, hpops⟩ := counts_of_reports hreports
    simp [hlist, hpushes, hpops, Event.isPush, Event.isPop]
  | failedPop error hlist _ => simp [hlist, ClientCall.events, Event.isPush, Event.isPop]

/-- A pop is the first event of its callback, and the worker has an id to pop. -/
theorem pop_first {before after : List Event} {failure : Option TraceError}
    (hpop : events = before ++ .call .popCorrelation failure :: after) :
    before = [] ∧ 0 < c.stack.depth := by
  unfold CorrelationStack.depth
  cases h with
  | pass => simp at hpop
  | push id | refusedPush id error =>
    rcases before with _ | ⟨_, _ | ⟨_, _⟩⟩ <;> simp [ClientCall.events] at hpop
  | @pop _ _ _ _ reports hlist _ hreports =>
    cases before with
    | nil => simp [hlist]
    | cons event before =>
      have hmem : Event.call .popCorrelation failure ∈ reports := by simp [(List.cons.inj hpop).2]
      cases hreports _ hmem
  | failedPop error hlist _ =>
    rcases before with _ | ⟨_, _ | ⟨_, _⟩⟩ <;> simp [ClientCall.events, hlist] at hpop ⊢

/-- The worker's list stays the upper part of what the client holds, unless the client refuses a
pop. -/
theorem mirrored {below : List UInt64}
    (hheld : c.correlation = c.stack.pushed.map CorrelationId.raw ++ below) :
    held = pushed.map CorrelationId.raw ++ below ∨
      c.gateway.client.wouldAccept .popCorrelation = false ∧
        ∃ error, .call .popCorrelation (some error) ∈ events := by
  cases h with
  | pass | refusedPush => exact .inl hheld
  | push id => exact .inl (by simp [hheld])
  | pop hlist hpopped _ =>
    have hsame := hpopped.symm.trans (hlist ▸ hheld)
    exact .inl (List.cons.inj hsame).2
  | failedPop error hlist hfails =>
    have hrefused := hfails.resolve_right (by simp [hheld, hlist])
    exact .inr ⟨hrefused, error, by simp [ClientCall.events]⟩

end Correlator.Turn

/-! ## All callbacks -/

/-- The client holds ids that are not zero above `below`, and at least as many as the worker has
pushed. -/
def Covers (held below : List UInt64) (depth : Nat) : Prop :=
  ∃ above, held = above ++ below ∧ depth ≤ above.length ∧ ∀ raw ∈ above, raw ≠ 0

/-- The worker takes nothing away from below the ids that it has pushed. -/
theorem Correlator.Turn.covers {c : Correlator} {events : List Event} {pushed : List CorrelationId}
    {held below : List UInt64} (h : c.Turn events pushed held)
    (hcovers : Covers c.correlation below c.stack.depth) : Covers held below pushed.length := by
  obtain ⟨above, hheld, hlength, hids⟩ := hcovers
  unfold CorrelationStack.depth at hlength
  cases h with
  | pass | refusedPush => exact ⟨above, hheld, hlength, hids⟩
  | push id =>
    refine ⟨id.raw :: above, by simp [hheld], by simpa using hlength, ?_⟩
    simpa using ⟨id.ne_zero, hids⟩
  | @pop _ rest popped _ _ hlist hpopped _ =>
    rw [hlist, List.length_cons] at hlength
    obtain ⟨last, above, rfl⟩ : ∃ last more, above = last :: more :=
      List.exists_cons_of_length_pos (by omega)
    obtain ⟨-, rfl⟩ : popped = last ∧ held = above ++ below := by simpa [hpopped] using hheld
    exact ⟨above, rfl, by simpa using hlength, fun raw hraw => hids raw (by simp [hraw])⟩
  | failedPop error hlist _ =>
    rw [hlist, List.length_cons] at hlength
    exact ⟨above, hheld, by omega, hids⟩

/-- Some events have brought a worker that had pushed nothing here, while the client held `below`
before them. -/
structure Mirrored (below : List UInt64) (events : List Event) (c : Correlator) : Prop where
  counts : pushes events = c.stack.depth + pops events
  issued : ∀ before failure after, events = before ++ .call .popCorrelation failure :: after →
    pops before < pushes before
  covers : Covers c.correlation below c.stack.depth
  mirrored : (∀ error, .call .popCorrelation (some error) ∉ events) →
    c.correlation = c.stack.pushed.map CorrelationId.raw ++ below

theorem Mirrored.start (gateway : Gateway) :
    Mirrored gateway.client.correlation [] { gateway } where
  counts := rfl
  issued := by simp
  covers := ⟨[], rfl, Nat.le_refl 0, by simp⟩
  mirrored := fun _ => rfl

theorem Mirrored.turn {below : List UInt64} {events more : List Event} {c c' : Correlator}
    (h : Mirrored below events c) (hturn : c.Turn more c'.stack.pushed c'.correlation) :
    Mirrored below (events ++ more) c' where
  counts := by
    have hbefore := h.counts
    have hnow : _ = c'.stack.depth + pops more := hturn.counts
    simp only [pushes_append, pops_append]
    omega
  issued := by
    intro before failure after heq
    -- a pop of this callback is issued right after the earlier events
    have hnow (between : List Event)
        (hsplit : more = between ++ .call .popCorrelation failure :: after) :
        between = [] ∧ pops events < pushes events := by
      obtain ⟨rfl, hdepth⟩ := hturn.pop_first hsplit
      have hcounts := h.counts
      exact ⟨rfl, by omega⟩
    rcases List.append_eq_append_iff.mp heq with ⟨between, rfl, hsplit⟩ | ⟨between, rfl, hsplit⟩
    · obtain ⟨rfl, hcounts⟩ := hnow between hsplit
      simpa using hcounts
    · cases between with
      | nil =>
        have hcounts := (hnow [] hsplit.symm).2
        simpa using hcounts
      | cons first between =>
        obtain ⟨rfl, -⟩ := List.cons.inj hsplit
        exact h.issued before failure between rfl
  covers := hturn.covers h.covers
  mirrored := by
    intro hpops
    have hheld := h.mirrored fun error herror => hpops error (List.mem_append_left more herror)
    refine (hturn.mirrored hheld).resolve_right ?_
    rintro ⟨-, error, herror⟩
    exact hpops error (List.mem_append_right events herror)

namespace Correlator

theorem mirrored_run (gateway : Gateway) (callbacks : List ApiCallback) :
    let last := ({ gateway } : Correlator).run callbacks
    ∃ events, last.gateway.journal = gateway.journal ++ events ∧
      Mirrored gateway.client.correlation events last := by
  intro last
  induction callbacks using List.reverseRecOn with
  | nil => exact ⟨[], by simp [last, run], .start _⟩
  | append_singleton callbacks callback ih =>
    obtain ⟨events, hjournal, hmirrored⟩ := ih
    obtain ⟨more, hmore, -, hturn⟩ := (({ gateway } : Correlator).run callbacks).turn_step callback
    have hlast : last = (({ gateway } : Correlator).run callbacks).step callback := run_append _ _ _
    rw [hlast]
    exact ⟨events ++ more, by rw [hmore, hjournal, List.append_assoc], hmirrored.turn hturn⟩

/-- Let a worker that has pushed nothing handle any callbacks. It has as many ids pushed as it has
pushed successfully less the pops that it has issued, and it issues a pop only while this is
positive. No id that it pushes is zero. The client still holds what it held, below ids that are not
zero, and as long as no pop has failed these are the ids that the worker has pushed. -/
theorem stack_of_run (gateway : Gateway) (callbacks : List ApiCallback) :
    let last := ({ gateway } : Correlator).run callbacks
    ∃ events, last.gateway.journal = gateway.journal ++ events ∧
      pushes events = last.stack.depth + pops events ∧
      (∀ before failure after, events = before ++ .call .popCorrelation failure :: after →
        pops before < pushes before) ∧
      (∀ id failure, .call (.pushCorrelation id) failure ∈ events → id.raw ≠ 0) ∧
      (∃ above, last.correlation = above ++ gateway.client.correlation ∧ ∀ raw ∈ above, raw ≠ 0) ∧
      ((∀ error, .call .popCorrelation (some error) ∉ events) →
        last.correlation =
          last.stack.pushed.map CorrelationId.raw ++ gateway.client.correlation) := by
  intro last
  obtain ⟨events, hjournal, hmirrored⟩ := mirrored_run gateway callbacks
  obtain ⟨above, habove, -, hids⟩ := hmirrored.covers
  exact ⟨events, hjournal, hmirrored.counts, hmirrored.issued, fun id _ _ => id.ne_zero,
    ⟨above, habove, hids⟩, hmirrored.mirrored⟩

/-! ## Clients that fail no pop -/

/-- The worker's list is the upper part of the stack of a client that refuses no pop. -/
structure InStep (below : List UInt64) (c : Correlator) : Prop where
  pops : ∀ n, c.gateway.client.refuses n .popCorrelation = none
  correlation : c.correlation = c.stack.pushed.map CorrelationId.raw ++ below

variable {c c' : Correlator} {below : List UInt64}

theorem InStep.step (h : c.InStep below) (callback : ApiCallback) :
    (c.step callback).InStep below := by
  obtain ⟨calls, hcalls, -⟩ := Session.makes_onCall c.gateway c.stack callback.filter callback.site
    callback.function callback.id
  obtain ⟨events, -, -, hturn⟩ := c.turn_step callback
  refine ⟨fun n => (congrFun₂ hcalls.refuses_eq n _).trans (h.pops n), ?_⟩
  refine (hturn.mirrored h.correlation).resolve_right ?_
  rintro ⟨hrefused, -⟩
  simp [DeviceClient.wouldAccept, h.pops] at hrefused

theorem InStep.run (h : c.InStep below) (callbacks : List ApiCallback) :
    (c.run callbacks).InStep below := by
  induction callbacks generalizing c with
  | nil => exact h
  | cons callback callbacks ih => exact ih (h.step callback)

/-- What the client holds says what the worker has pushed. -/
theorem InStep.correlation_eq_iff (h : c.InStep below) (h' : c'.InStep below) :
    c'.correlation = c.correlation ↔ c'.stack.pushed = c.stack.pushed := by
  have hraw : Function.Injective CorrelationId.raw := by
    rintro ⟨raw, _⟩ ⟨_, _⟩ rfl
    rfl
  have hids : Function.Injective (List.map CorrelationId.raw) := List.map_injective_iff.mpr hraw
  rw [h.correlation, h'.correlation, List.append_cancel_right_eq, hids.eq_iff]

end Correlator
end DeviceTrace
