import DeviceTrace.Client.Faults
import DeviceTrace.Proofs.Monitor.Switching

/-!
# What switching kinds does at a client that stands by its answers

As long as the client answers a request for a kind the same way each time, it does not matter how
often and in which order kinds are listed. A kind is in the requested state in the end if it was
before or the client accepts it, and how far the request got can be read off the record. What is
left open are kinds that the client refuses, so the same request once more asks for these alone, is
refused again and changes nothing.
-/

namespace DeviceTrace

namespace Tally

variable (t : Tally)

theorem reach_eq_all_iff : t.reach = .all ↔ t.succeeded ≠ 0 ∧ t.failed = 0 := by
  unfold reach
  split
  · simp [*]
  · split <;> simp [*]

theorem reach_eq_none_iff : t.reach = .none ↔ t.succeeded = 0 := by
  unfold reach
  split
  · simp [*]
  · split <;> simp [*]

theorem reach_eq_some_iff : t.reach = .some ↔ t.succeeded ≠ 0 ∧ t.failed ≠ 0 := by
  unfold reach
  split
  · simp [*]
  · split <;> simp [*]

theorem reach_congr {t t' : Tally} (hsucceeded : t.succeeded = t'.succeeded)
    (hfailed : t.failed = t'.failed) : t.reach = t'.reach := by
  rw [reach, reach, hsucceeded, hfailed]

theorem count_succeeded (succeeded : Bool) :
    (t.count succeeded).succeeded = t.succeeded + if succeeded then 1 else 0 := by
  cases succeeded <;> rfl

theorem count_failed (succeeded : Bool) :
    (t.count succeeded).failed = t.failed + if !succeeded then 1 else 0 := by
  cases succeeded <;> rfl

end Tally

namespace Monitor

variable {m : Monitor} {context : ContextHandle} {enable : Bool} {accepts : Kind → Bool}
  {kinds : List Kind} {stop : Nat}

/-- Until it has been called `stop` times in all, the client takes the request for a kind exactly if
it accepts the kind. -/
def SteadyUntil (m : Monitor) (stop : Nat) (context : ContextHandle) (enable : Bool)
    (accepts : Kind → Bool) : Prop :=
  ∀ n, m.gateway.client.calls ≤ n → n < stop → ∀ kind,
    (m.gateway.client.refuses n (requestCall enable context kind)).isNone = accepts kind

/-- The kind is in the requested state, or gets there when it is requested. -/
def reaches (m : Monitor) (context : ContextHandle) (enable : Bool) (accepts : Kind → Bool)
    (kind : Kind) : Bool :=
  m.enabled.contains context kind = enable || accepts kind

theorem reaches_iff {kind : Kind} : m.reaches context enable accepts kind = true ↔
    m.enabled.contains context kind = enable ∨ accepts kind = true := by
  rw [reaches, Bool.or_eq_true, decide_eq_true_iff]

theorem reaches_of_accepts {kind : Kind} (h : accepts kind = true) :
    m.reaches context enable accepts kind = true :=
  reaches_iff.mpr (.inr h)

/-- The monitor after a request that the client has accepted. -/
def granted (m : Monitor) (context : ContextHandle) (enable : Bool) (kind : Kind) : Monitor where
  enabled := m.enabled.set context kind enable
  gateway :=
    { client := { m.gateway.client with
        calls := m.gateway.client.calls + 1
        enabledKinds := m.gateway.client.enabledKinds.set context kind enable }
      journal := m.gateway.journal ++ [.call (requestCall enable context kind) none] }

/-- The monitor after a request that the client has refused. -/
def denied (m : Monitor) (context : ContextHandle) (enable : Bool) (kind : Kind)
    (message : String) : Monitor :=
  let call := requestCall enable context kind
  let error := TraceError.client call.function message
  { m with gateway :=
    { client := { m.gateway.client with calls := m.gateway.client.calls + 1 }
      journal := m.gateway.journal ++
        [.call call (some error), .failure (error.report call.function)] } }

/-! ## One kind -/

theorem switchKind_eq (m : Monitor) (context : ContextHandle) (enable : Bool) (kind : Kind) :
    m.switchKind context enable kind =
      if m.enabled.contains context kind = enable then (true, m)
      else match m.gateway.client.refuses m.gateway.client.calls
          (requestCall enable context kind) with
        | none => (true, m.granted context enable kind)
        | some message => (false, m.denied context enable kind message) := by
  unfold switchKind
  split
  · rfl
  · rw [Gateway.attempt, Gateway.ask_eq, DeviceClient.answer]
    cases m.gateway.client.refuses m.gateway.client.calls (requestCall enable context kind) with
    | none => cases enable <;> rfl
    | some message => rfl

/-- The policy of the client stays, and its calls only grow in number. -/
theorem client_switchKind (m : Monitor) (context : ContextHandle) (enable : Bool) (kind : Kind) :
    (m.switchKind context enable kind).2.gateway.client.refuses = m.gateway.client.refuses ∧
      m.gateway.client.calls ≤ (m.switchKind context enable kind).2.gateway.client.calls := by
  rw [switchKind_eq]
  split
  · exact ⟨rfl, Nat.le_refl _⟩
  · split
    · exact ⟨rfl, Nat.le_succ _⟩
    · exact ⟨rfl, Nat.le_succ _⟩

theorem SteadyUntil.switchKind (h : m.SteadyUntil stop context enable accepts) (kind : Kind) :
    (m.switchKind context enable kind).2.SteadyUntil stop context enable accepts := by
  intro n hfirst hlast other
  obtain ⟨hrefuses, hcalls⟩ := m.client_switchKind context enable kind
  rw [hrefuses]
  exact h n (Nat.le_trans hcalls hfirst) hlast other

/-- All that can come of requesting a kind of a steady client. -/
theorem SteadyUntil.switchKind_cases (h : m.SteadyUntil stop context enable accepts) {kind : Kind}
    (hstop : (m.switchKind context enable kind).2.gateway.client.calls ≤ stop) :
    (m.enabled.contains context kind = enable ∧ m.switchKind context enable kind = (true, m)) ∨
      (m.enabled.contains context kind ≠ enable ∧ accepts kind = true ∧
        m.switchKind context enable kind = (true, m.granted context enable kind)) ∨
      (m.enabled.contains context kind ≠ enable ∧ accepts kind = false ∧ ∃ message,
        m.switchKind context enable kind = (false, m.denied context enable kind message)) := by
  have hanswer := h m.gateway.client.calls (Nat.le_refl _)
  rw [switchKind_eq] at hstop ⊢
  by_cases hsame : m.enabled.contains context kind = enable
  · exact .inl ⟨hsame, if_pos hsame⟩
  · rw [if_neg hsame] at hstop ⊢
    cases hrefuses : m.gateway.client.refuses m.gateway.client.calls
        (requestCall enable context kind) with
    | none =>
      rw [hrefuses] at hstop
      have haccepts := hanswer hstop kind
      rw [hrefuses, Option.isNone_none] at haccepts
      exact .inr (.inl ⟨hsame, haccepts.symm, rfl⟩)
    | some message =>
      rw [hrefuses] at hstop
      have haccepts := hanswer hstop kind
      rw [hrefuses, Option.isNone_some] at haccepts
      exact .inr (.inr ⟨hsame, haccepts.symm, message, rfl⟩)

/-- What is counted of a kind, and what is on record afterwards. -/
theorem SteadyUntil.switchKind_steady (h : m.SteadyUntil stop context enable accepts) {kind : Kind}
    (hstop : (m.switchKind context enable kind).2.gateway.client.calls ≤ stop) :
    (m.switchKind context enable kind).1 = m.reaches context enable accepts kind ∧
      ∀ c k, (m.switchKind context enable kind).2.enabled.contains c k =
        if c = context ∧ k = kind ∧ accepts kind then enable else m.enabled.contains c k := by
  obtain ⟨hsame, heq⟩ | ⟨-, haccepts, heq⟩ | ⟨hdiffers, hrefuses, message, heq⟩ :=
    h.switchKind_cases hstop
  · rw [heq]
    refine ⟨(reaches_iff.mpr (.inl hsame)).symm, fun c k => ?_⟩
    split
    · rename_i hkind
      rw [hkind.1, hkind.2.1, hsame]
    · rfl
  · rw [heq]
    refine ⟨(reaches_of_accepts haccepts).symm, fun c k => ?_⟩
    simp only [haccepts, and_true]
    rfl
  · rw [heq]
    refine ⟨by simp [reaches, hdiffers, hrefuses], fun c k => ?_⟩
    rw [if_neg (by simp [hrefuses])]
    rfl

theorem calls_denied (m : Monitor) (context : ContextHandle) (enable : Bool) (kind : Kind)
    (message : String) :
    (m.denied context enable kind message).gateway.calls =
      m.gateway.calls ++ [requestCall enable context kind] := by
  simp [denied, Gateway.calls, Event.call?]

/-! ## Many kinds -/

theorem calls_le_switchEach (m : Monitor) (context : ContextHandle) (enable : Bool)
    (kinds : List Kind) (tally : Tally) :
    m.gateway.client.calls ≤
      (m.switchEach context enable kinds tally).2.gateway.client.calls := by
  induction kinds generalizing m tally with
  | nil => exact Nat.le_refl _
  | cons kind kinds ih =>
    exact Nat.le_trans (m.client_switchKind context enable kind).2 (ih _ _)

/-- What a request counts and records at a client that stands by its answers while it lasts. -/
theorem switchEach_steady {tally : Tally}
    (h : m.SteadyUntil (m.switchEach context enable kinds tally).2.gateway.client.calls context
      enable accepts) :
    let (tally', m') := m.switchEach context enable kinds tally
    tally'.succeeded = tally.succeeded + kinds.countP (m.reaches context enable accepts) ∧
      tally'.failed = tally.failed + kinds.countP (!m.reaches context enable accepts ·) ∧
      ∀ c k, m'.enabled.contains c k =
        if c = context ∧ k ∈ kinds ∧ accepts k then enable else m.enabled.contains c k := by
  induction kinds generalizing m tally with
  | nil => exact ⟨rfl, rfl, fun c k => by simp⟩
  | cons kind kinds ih =>
    rw [switchEach_cons] at h ⊢
    obtain ⟨hreached, hfirst⟩ := h.switchKind_steady (calls_le_switchEach ..)
    obtain ⟨hsucceeded, hfailed, hcontains⟩ := ih (h.switchKind kind)
    -- what a kind reaches is the same before and after another one is requested
    have hsame : (m.switchKind context enable kind).2.reaches context enable accepts =
        m.reaches context enable accepts := by
      funext other
      rw [reaches, hfirst, reaches]
      split
      · rename_i heq
        simp [heq.2.1, heq.2.2]
      · rfl
    rw [hsame, Tally.count_succeeded] at hsucceeded
    rw [hsame, Tally.count_failed] at hfailed
    refine ⟨?_, ?_, fun c k => ?_⟩
    · rw [hsucceeded, hreached, List.countP_cons, Nat.add_right_comm, Nat.add_assoc]
    · rw [hfailed, hreached, List.countP_cons, Nat.add_right_comm, Nat.add_assoc]
    · rw [hcontains, hfirst]
      by_cases hk : k = kind
      · subst hk
        by_cases hc : c = context <;> by_cases ha : accepts k <;> simp [hc, ha]
      · simp [hk]

/-- If the client refuses all that is not in the requested state, then each such kind of the list
costs a call, and nothing changes. -/
theorem switchEach_settled {tally : Tally}
    (h : m.SteadyUntil (m.switchEach context enable kinds tally).2.gateway.client.calls context
      enable accepts)
    (hsettled : ∀ kind ∈ kinds, accepts kind → m.enabled.contains context kind = enable) :
    let missing := kinds.filter fun kind => m.enabled.contains context kind ≠ enable
    let after := (m.switchEach context enable kinds tally).2
    after.enabled = m.enabled ∧
      after.gateway.client = { m.gateway.client with
        calls := m.gateway.client.calls + missing.length } ∧
      after.gateway.calls = m.gateway.calls ++ missing.map (requestCall enable context) := by
  induction kinds generalizing m tally with
  | nil => exact ⟨rfl, rfl, by simp [switchEach]⟩
  | cons kind kinds ih =>
    intro missing after
    rw [switchEach_cons] at h
    obtain ⟨hkind, hkinds⟩ := List.forall_mem_cons.mp hsettled
    have hafter : after = ((m.switchKind context enable kind).2.switchEach context enable kinds
      (tally.count (m.switchKind context enable kind).1)).2 := rfl
    obtain ⟨hsame, heq⟩ | ⟨hdiffers, haccepts, -⟩ | ⟨hdiffers, -, message, heq⟩ :=
      h.switchKind_cases (calls_le_switchEach ..)
    · have hmissing : missing = kinds.filter fun kind => m.enabled.contains context kind ≠ enable :=
        List.filter_cons_of_neg (by simpa using hsame)
      have hrest := h.switchKind kind
      rw [heq] at h hrest hafter
      rw [hmissing, hafter]
      exact ih hrest hkinds
    · exact absurd (hkind haccepts) hdiffers
    · have hmissing : missing = kind ::
          kinds.filter fun kind => m.enabled.contains context kind ≠ enable :=
        List.filter_cons_of_pos (by simpa using hdiffers)
      have hrest := h.switchKind kind
      rw [heq] at h hrest hafter
      obtain ⟨henabled, hclient, hcalls⟩ := ih hrest hkinds
      rw [hmissing, hafter]
      refine ⟨henabled, hclient.trans ?_, hcalls.trans ?_⟩
      · rw [List.length_cons, Nat.add_comm _ 1, ← Nat.add_assoc]
        rfl
      · rw [calls_denied, List.append_assoc]
        rfl

theorem contains_switchEach_iff {tally : Tally}
    (h : m.SteadyUntil (m.switchEach context enable kinds tally).2.gateway.client.calls context
      enable accepts) {kind : Kind} (hkind : kind ∈ kinds) :
    (m.switchEach context enable kinds tally).2.enabled.contains context kind = enable ↔
      m.reaches context enable accepts kind = true := by
  obtain ⟨-, -, hcontains⟩ := switchEach_steady h
  rw [reaches_iff]
  refine (Eq.congr_left (hcontains context kind)).trans ?_
  by_cases ha : accepts kind = true
  · rw [if_pos ⟨rfl, hkind, ha⟩]
    exact iff_of_true rfl (.inr ha)
  · rw [if_neg fun heq => ha heq.2.2]
    exact (or_iff_left ha).symm

/-- How far a request got is told by which of its kinds reach the requested state. -/
theorem reach_switchEach (h : m.SteadyUntil
      (m.switchEach context enable kinds {}).2.gateway.client.calls context enable accepts) :
    let reach := (m.switchEach context enable kinds {}).1.reach
    (reach = .all ↔ kinds ≠ [] ∧ ∀ kind ∈ kinds, m.reaches context enable accepts kind = true) ∧
      (reach = .none ↔ ∀ kind ∈ kinds, m.reaches context enable accepts kind = false) ∧
      (reach = .some ↔ (∃ kind ∈ kinds, m.reaches context enable accepts kind = true) ∧
        ∃ kind ∈ kinds, m.reaches context enable accepts kind = false) := by
  obtain ⟨hsucceeded, hfailed, -⟩ := switchEach_steady h
  have hnone : (m.switchEach context enable kinds {}).1.succeeded = 0 ↔
      ∀ kind ∈ kinds, m.reaches context enable accepts kind = false := by
    rw [hsucceeded, Nat.zero_add, List.countP_eq_zero]
    simp only [Bool.not_eq_true]
  have hall : (m.switchEach context enable kinds {}).1.failed = 0 ↔
      ∀ kind ∈ kinds, m.reaches context enable accepts kind = true := by
    rw [hfailed, Nat.zero_add, List.countP_eq_zero]
    simp only [Bool.not_eq_true, Bool.not_eq_false']
  refine ⟨?all, ?none, ?some⟩
  case all =>
    rw [Tally.reach_eq_all_iff, Ne, hnone, hall]
    refine and_congr_left fun hreached => ?_
    cases kinds with
    | nil => simp
    | cons kind kinds => simp [hreached kind List.mem_cons_self]
  case none => rw [Tally.reach_eq_none_iff, hnone]
  case some =>
    rw [Tally.reach_eq_some_iff, Ne, Ne, hnone, hall]
    simp only [not_forall, Bool.not_eq_false, Bool.not_eq_true, exists_prop]

/-- As long as the client stands by its answers, a request leaves each kind that is listed before
the first `invalid` in the requested state exactly if it was before or the client accepts it, and
all other kinds and contexts as they were. It reached all if there are such kinds and all are in the
requested state now, none if none of them is, and some otherwise. The same request of a monitor that
has the same on record gets as far, asks for each listed kind that is not in the requested state and
for nothing else, and changes neither the record nor the client, which has only been called. -/
theorem switchKinds_at_steady_client (m : Monitor) (context : ContextHandle) (kinds : List Kind)
    (enable : Bool) (accepts : Kind → Bool)
    (h : m.SteadyUntil (m.switchKinds context kinds enable).2.gateway.client.calls context enable
      accepts) :
    let listed := Kind.valid kinds
    let reach := (m.switchKinds context kinds enable).1
    let after := (m.switchKinds context kinds enable).2
    (∀ kind ∈ listed, after.enabled.contains context kind = enable ↔
        m.enabled.contains context kind = enable ∨ accepts kind) ∧
      (∀ c kind, (c ≠ context ∨ kind ∉ listed) →
        after.enabled.contains c kind = m.enabled.contains c kind) ∧
      (reach = .all ↔ listed ≠ [] ∧
        ∀ kind ∈ listed, after.enabled.contains context kind = enable) ∧
      (reach = .none ↔ ∀ kind ∈ listed, after.enabled.contains context kind ≠ enable) ∧
      (reach = .some ↔ (∃ kind ∈ listed, after.enabled.contains context kind = enable) ∧
        ∃ kind ∈ listed, after.enabled.contains context kind ≠ enable) ∧
      ∀ again : Monitor, again.enabled = after.enabled →
        again.SteadyUntil (again.switchKinds context kinds enable).2.gateway.client.calls context
          enable accepts →
        let missing := listed.filter fun kind => after.enabled.contains context kind ≠ enable
        let result := again.switchKinds context kinds enable
        result.1 = reach ∧ result.2.enabled = after.enabled ∧
          result.2.gateway.client = { again.gateway.client with
            calls := again.gateway.client.calls + missing.length } ∧
          result.2.gateway.calls =
            again.gateway.calls ++ missing.map (requestCall enable context) := by
  intro listed reach after
  obtain ⟨hsucceeded, hfailed, hcontains⟩ := switchEach_steady h
  obtain ⟨hall, hnone, hsome⟩ := reach_switchEach h
  have hreaches : ∀ kind ∈ listed, (after.enabled.contains context kind = enable ↔
      m.reaches context enable accepts kind = true) := fun _ => contains_switchEach_iff h
  have hmisses : ∀ kind ∈ listed, (after.enabled.contains context kind ≠ enable ↔
      m.reaches context enable accepts kind = false) := by
    intro kind hkind
    rw [Ne, hreaches kind hkind, Bool.not_eq_true]
  refine ⟨?state, ?frame, ?all, ?none, ?some, ?again⟩
  case state =>
    intro kind hkind
    rw [hreaches kind hkind, reaches_iff]
  case frame =>
    rintro c kind hother
    refine (hcontains c kind).trans (if_neg ?_)
    rintro ⟨hc, hkind, -⟩
    exact hother.elim (absurd hc) (absurd hkind)
  case all =>
    exact hall.trans (and_congr_right fun _ => forall₂_congr fun k hk => (hreaches k hk).symm)
  case none => exact hnone.trans (forall₂_congr fun k hk => (hmisses k hk).symm)
  case some =>
    refine hsome.trans (and_congr ?_ ?_)
    · exact exists_congr fun k => and_congr_right fun hk => (hreaches k hk).symm
    · exact exists_congr fun k => and_congr_right fun hk => (hmisses k hk).symm
  case again =>
    intro again hagain hsteady missing result
    obtain ⟨hsucceeded', hfailed', -⟩ := switchEach_steady hsteady
    obtain ⟨henabled, hclient, hcalls⟩ := switchEach_settled hsteady fun kind hkind haccepts => by
      rw [hagain, hreaches kind hkind]
      exact reaches_of_accepts haccepts
    have hsame : ∀ kind ∈ listed, again.reaches context enable accepts kind =
        m.reaches context enable accepts kind := by
      intro kind hkind
      rw [Bool.eq_iff_iff, reaches_iff, hagain, hreaches kind hkind]
      exact or_iff_left_of_imp reaches_of_accepts
    have hcount : listed.countP (again.reaches context enable accepts) =
        listed.countP (m.reaches context enable accepts) :=
      List.countP_congr fun kind hkind => by rw [hsame kind hkind]
    have hmissed : listed.countP (!again.reaches context enable accepts ·) =
        listed.countP (!m.reaches context enable accepts ·) :=
      List.countP_congr fun kind hkind => by rw [hsame kind hkind]
    have hmissing : missing =
        listed.filter fun kind => again.enabled.contains context kind ≠ enable := by
      rw [hagain]
    refine ⟨Tally.reach_congr ?_ ?_, henabled.trans hagain, ?_, ?_⟩
    · exact (hsucceeded'.trans (congrArg _ hcount)).trans hsucceeded.symm
    · exact (hfailed'.trans (congrArg _ hmissed)).trans hfailed.symm
    · rw [hmissing]
      exact hclient
    · rw [hmissing]
      exact hcalls

theorem steadyUntil_of_faults {faults : ClientFaults}
    (h : m.gateway.client.refuses = fun _ call => faults.refusal? call) (stop : Nat)
    (context : ContextHandle) (enable : Bool) :
    m.SteadyUntil stop context enable fun kind =>
      (faults.refusal? (requestCall enable context kind)).isNone := by
  intro n _ _ kind
  rw [h]

/-! A kind that is accepted, one that is refused and listed twice, and one behind the end of the
list. -/

def countersOnly : Monitor :=
  { gateway := { client := DeviceClient.willing.withFaults ⟨[], [.memcpy2]⟩ } }

def repeatedKinds : List Kind := [.unifiedMemoryCounter, .memcpy2, .memcpy2, .invalid, .kernel]

theorem switchKinds_at_steady_client_twice :
    let first := countersOnly.switchKinds ⟨1⟩ repeatedKinds true
    let second := first.2.switchKinds ⟨1⟩ repeatedKinds true
    first.1 = .some ∧ second.1 = .some ∧ second.2.enabled = first.2.enabled ∧
      first.2.enabled.contains ⟨1⟩ .unifiedMemoryCounter = true ∧
      first.2.enabled.contains ⟨1⟩ .kernel = false ∧
      second.2.gateway.calls =
        first.2.gateway.calls ++ [.enableKind ⟨1⟩ .memcpy2, .enableKind ⟨1⟩ .memcpy2] := by
  intro first second
  have hpolicy : countersOnly.gateway.client.refuses =
      fun _ call => ClientFaults.refusal? ⟨[], [.memcpy2]⟩ call := rfl
  have hlater : first.2.gateway.client.refuses =
      fun _ call => ClientFaults.refusal? ⟨[], [.memcpy2]⟩ call := rfl
  obtain ⟨hstate, hframe, -, -, hsome, hagain⟩ :=
    switchKinds_at_steady_client countersOnly ⟨1⟩ repeatedKinds true _
      (steadyUntil_of_faults hpolicy _ _ _)
  obtain ⟨hreach, henabled, -, hcalls⟩ := hagain first.2 rfl (steadyUntil_of_faults hlater _ _ _)
  have hcounter : first.2.enabled.contains ⟨1⟩ .unifiedMemoryCounter = true :=
    (hstate _ (by decide)).mpr (.inr rfl)
  have hcopy : first.2.enabled.contains ⟨1⟩ .memcpy2 ≠ true := fun h =>
    absurd ((hstate _ (by decide)).mp h) (by decide)
  have hfirst : first.1 = .some :=
    hsome.mpr ⟨⟨_, by decide, hcounter⟩, ⟨.memcpy2, by decide, hcopy⟩⟩
  refine ⟨hfirst, hreach.trans hfirst, henabled, hcounter, hframe _ _ (.inr (by decide)), ?_⟩
  exact hcalls

end Monitor
end DeviceTrace
