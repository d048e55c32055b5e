import Mathlib.Data.List.TakeWhile
import DeviceTrace.Monitor.Basic
import DeviceTrace.Proofs.Client.Calls

/-!
# What switching kinds does at a willing client

A monitor calls the client only for the kinds that it has not recorded in the requested state. So
switching brings the record of each kind into this state, but at the client only the kinds whose
record differed from it.
-/

namespace DeviceTrace

namespace Kind

theorem valid_eq_self {kinds : List Kind} (h : .invalid ∉ kinds) : valid kinds = kinds := by
  unfold valid
  rw [List.takeWhile_eq_self_iff]
  intro kind hkind
  rw [bne_iff_ne]
  rintro rfl
  exact h hkind

theorem invalid_not_mem_valid (kinds : List Kind) : .invalid ∉ valid kinds := by
  intro h
  have hne := List.mem_takeWhile_imp h
  exact absurd rfl (bne_iff_ne.mp hne)

end Kind

namespace Monitor

variable {m : Monitor} (hm : m.gateway.client.Willing) (context : ContextHandle) (enable : Bool)

/-- Whether the client has a kind of a context enabled. -/
def atClient (m : Monitor) (context : ContextHandle) (kind : Kind) : Bool :=
  m.gateway.client.enabledKinds.contains context kind

include hm

theorem attempt_requestCall (kind : Kind) :
    (m.gateway.attempt (requestCall enable context kind)).1 = true ∧
      (m.gateway.attempt (requestCall enable context kind)).2.client.Willing ∧
      (m.gateway.attempt (requestCall enable context kind)).2.client.enabledKinds =
        m.gateway.client.enabledKinds.set context kind enable := by
  have hone := Gateway.Makes.one m.gateway (requestCall enable context kind)
  refine ⟨?_, hone.willing hm, (hone.client_eq hm).2.trans ?_⟩
  · show (m.gateway.ask (requestCall enable context kind)).1.isSome = true
    rw [Gateway.ask_eq, DeviceClient.answer, hm]
    cases enable <;> rfl
  · cases enable <;> rfl

theorem switchKind_willing (kind : Kind) :
    (m.switchKind context enable kind).2.gateway.client.Willing ∧
    (∀ c k, (m.switchKind context enable kind).2.enabled.contains c k =
      if c = context ∧ k = kind then enable else m.enabled.contains c k) ∧
    ∀ c k, (m.switchKind context enable kind).2.atClient c k =
      if c = context ∧ k = kind ∧ m.enabled.contains c k ≠ enable then enable
      else m.atClient c k := by
  unfold switchKind
  by_cases hsame : m.enabled.contains context kind = enable
  · rw [if_pos hsame]
    refine ⟨hm, fun c k => ?_, fun c k => ?_⟩
    · split
      · rename_i heq
        rw [heq.1, heq.2, hsame]
      · rfl
    · rw [if_neg]
      rintro ⟨rfl, rfl, hne⟩
      exact hne hsame
  · obtain ⟨haccepted, hwilling, hkinds⟩ := attempt_requestCall hm context enable kind
    rw [if_neg hsame]
    rcases hattempt : m.gateway.attempt (requestCall enable context kind) with ⟨accepted, gateway⟩
    rw [hattempt] at haccepted hwilling hkinds
    dsimp only at haccepted hwilling hkinds ⊢
    rw [if_pos haccepted]
    refine ⟨hwilling, fun c k => rfl, fun c k => ?_⟩
    rw [atClient, hkinds, EnabledKinds.contains_set]
    by_cases heq : c = context ∧ k = kind
    · rw [if_pos heq, if_pos ⟨heq.1, heq.2, by rw [heq.1, heq.2]; exact hsame⟩]
    · rw [if_neg heq, if_neg fun h => heq ⟨h.1, h.2.1⟩]
      rfl

omit hm in
theorem switchEach_cons (kind : Kind) (kinds : List Kind) (tally : Tally) :
    m.switchEach context enable (kind :: kinds) tally =
      (m.switchKind context enable kind).2.switchEach context enable kinds
        (tally.count (m.switchKind context enable kind).1) := rfl

theorem switchEach_willing (kinds : List Kind) (tally : Tally) :
    (m.switchEach context enable kinds tally).2.gateway.client.Willing ∧
    (∀ c k, (m.switchEach context enable kinds tally).2.enabled.contains c k =
      if c = context ∧ k ∈ kinds then enable else m.enabled.contains c k) ∧
    ∀ c k, (m.switchEach context enable kinds tally).2.atClient c k =
      if c = context ∧ k ∈ kinds ∧ m.enabled.contains c k ≠ enable then enable
      else m.atClient c k := by
  induction kinds generalizing m tally with
  | nil => exact ⟨hm, fun c k => by simp [switchEach], fun c k => by simp [switchEach]⟩
  | cons kind kinds ih =>
    obtain ⟨hwilling, hrecorded, hclient⟩ := switchKind_willing hm context enable kind
    obtain ⟨hwilling', hrecorded', hclient'⟩ :=
      ih hwilling (tally.count (m.switchKind context enable kind).1)
    rw [switchEach_cons]
    refine ⟨hwilling', fun c k => ?_, fun c k => ?_⟩
    · rw [hrecorded', hrecorded]
      by_cases hc : c = context <;> by_cases hk : k = kind <;> simp [hc, hk]
    · rw [hclient', hclient, hrecorded]
      -- a kind that occurs again is recorded by then, so it is not asked for twice
      by_cases hc : c = context <;> by_cases hk : k = kind <;> simp [hc, hk]

/-- Switching kinds at a willing client: the record of each kind is brought into the requested
state, and at the client the kinds that were recorded otherwise. -/
theorem switchKinds_willing (kinds : List Kind) :
    (m.switchKinds context kinds enable).2.gateway.client.Willing ∧
    (∀ c k, (m.switchKinds context kinds enable).2.enabled.contains c k =
      if c = context ∧ k ∈ Kind.valid kinds then enable else m.enabled.contains c k) ∧
    ∀ c k, (m.switchKinds context kinds enable).2.atClient c k =
      if c = context ∧ k ∈ Kind.valid kinds ∧ m.enabled.contains c k ≠ enable then enable
      else m.atClient c k :=
  switchEach_willing hm context enable (Kind.valid kinds) {}

end Monitor
end DeviceTrace
