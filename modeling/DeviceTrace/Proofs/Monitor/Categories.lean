import DeviceTrace.Monitor.Native
import DeviceTrace.Proofs.Monitor.Steady

/-!
# Asking for categories is asking for their kinds

A request for native records goes category by category and puts the answers together. As every
category has kinds, this comes to the same as one request for all of them one after the other: the
client gets the same calls, the same is recorded, and the request gets as far. Links to host
operations are asked for afterwards, and how that ends is not told.
-/

namespace DeviceTrace

/-- The kinds of the category with this bit. -/
def kindsOfBit : Nat → List Kind
  | 0 => [.memcpy]
  | 1 => [.unifiedMemoryCounter, .memcpy2]
  | 2 => [.kernel]
  | 3 => [.pcSampling, .function]
  | 4 => [.driver]
  | 5 => [.runtime]
  | 6 => [.overhead]
  | _ => []

/-- The kinds of all categories in a word, the lowest bit first. -/
def requestedKinds (flags : UInt32) : List Kind :=
  (List.range 7).flatMap fun bit => if flags.toNat.testBit bit then kindsOfBit bit else []

/-! ## The word -/

theorem chosenCategories?_eq_none_iff {flags : UInt32} :
    chosenCategories? flags = none ↔ flags = 0 ∨ ∃ bit ≥ 7, flags.toNat.testBit bit := by
  have hbits : 2 ^ 7 ≤ flags.toNat ↔ ∃ bit ≥ 7, flags.toNat.testBit bit := by
    constructor
    · exact Nat.exists_ge_and_testBit_of_ge_two_pow
    · rintro ⟨bit, hbit, hset⟩
      have hpow : 2 ^ 7 ≤ 2 ^ bit := Nat.pow_le_pow_right (by decide) hbit
      exact Nat.le_trans hpow (Nat.ge_two_pow_of_testBit hset)
  rw [← hbits, chosenCategories?, ite_eq_left_iff]
  simp [nativeCategories, ← or_iff_not_imp_left]

theorem flatMap_filter {α β : Type} (p : α → Bool) (f : α → List β) (l : List α) :
    (l.filter p).flatMap f = l.flatMap fun a => if p a then f a else [] := by
  induction l with
  | nil => rfl
  | cons a l ih => by_cases h : p a <;> simp [h, ih]

/-- The chosen categories have the requested kinds in the same order. -/
theorem flatMap_kinds_of_chosen {flags : UInt32} {sets : List KindSet}
    (h : chosenCategories? flags = some sets) :
    sets.flatMap KindSet.kinds = requestedKinds flags := by
  unfold chosenCategories? at h
  split at h
  · cases h
  · cases h
    rw [List.flatMap_map, flatMap_filter]
    rfl

theorem kinds_ne_nil_of_chosen {flags : UInt32} {sets : List KindSet}
    (h : chosenCategories? flags = some sets) : ∀ set ∈ sets, set.kinds ≠ [] := by
  have hall : ∀ set ∈ nativeCategories, set.kinds ≠ [] := by decide
  unfold chosenCategories? at h
  split at h
  · cases h
  · cases h
    intro set hset
    obtain ⟨entry, hentry, rfl⟩ := List.mem_map.mp hset
    exact hall _ (List.fst_mem_of_mem_zipIdx (List.mem_filter.mp hentry).1)

/-! ## The answer -/

/-- How far a request for kinds got, as a request for categories tells it. -/
def Reach.native : Reach → NativeReach
  | .all => .all
  | .some => .some
  | .none => .none

theorem Reach.native_ne_error (r : Reach) : r.native ≠ .error := by
  cases r <;> exact NativeReach.noConfusion

/-- The progress of a request is what a tally of all its kinds shows. -/
structure NativeProgress.Tells (p : NativeProgress) (t : Tally) : Prop where
  anySet : p.anySet = true ↔ t.succeeded ≠ 0
  anyFailed : p.anyFailed = true ↔ t.failed ≠ 0

namespace NativeProgress.Tells

variable {p : NativeProgress} {t : Tally}

theorem start : Tells {} {} := ⟨by simp, by simp⟩

theorem reach (h : p.Tells t) : p.reach = t.reach.native := by
  obtain ⟨hset, hfailed⟩ := h
  unfold NativeProgress.reach Tally.reach
  by_cases hs : t.succeeded = 0 <;> by_cases hf : t.failed = 0 <;>
    simp_all [Reach.native]

/-- The answer of one request that counted something is added. -/
theorem add (h : p.Tells t) {one : Tally} (hone : one.succeeded + one.failed ≠ 0) :
    (p.add one.reach).Tells ⟨t.succeeded + one.succeeded, t.failed + one.failed⟩ := by
  obtain ⟨hset, hfailed⟩ := h
  cases hreach : one.reach with
  | all =>
    obtain ⟨hs, hf⟩ := one.reach_eq_all_iff.mp hreach
    exact ⟨by simp [NativeProgress.add, hs], by simp [NativeProgress.add, hf, hfailed]⟩
  | some =>
    obtain ⟨hs, hf⟩ := one.reach_eq_some_iff.mp hreach
    exact ⟨by simp [NativeProgress.add, hs], by simp [NativeProgress.add, hf]⟩
  | none =>
    have hs := one.reach_eq_none_iff.mp hreach
    have hf : one.failed ≠ 0 := by omega
    exact ⟨by simp [NativeProgress.add, hs, hset], by simp [NativeProgress.add, hf]⟩

end NativeProgress.Tells

namespace Monitor

variable (m : Monitor) (context : ContextHandle) (enable : Bool)

/-! ## Requests one after the other -/

/-- What a request does to the monitor does not depend on what was counted before it. -/
theorem switchEach_from (kinds : List Kind) (tally : Tally) :
    m.switchEach context enable kinds tally =
      let one := m.switchEach context enable kinds {}
      (⟨tally.succeeded + one.1.succeeded, tally.failed + one.1.failed⟩, one.2) := by
  induction kinds generalizing m tally with
  | nil => rfl
  | cons kind kinds ih =>
    rw [switchEach_cons, switchEach_cons, ih _ (tally.count _), ih _ (Tally.count {} _)]
    simp [Tally.count_succeeded, Tally.count_failed, Nat.add_assoc]

theorem switchEach_append (kinds more : List Kind) (tally : Tally) :
    m.switchEach context enable (kinds ++ more) tally =
      let (tally', m') := m.switchEach context enable kinds tally
      m'.switchEach context enable more tally' := by
  induction kinds generalizing m tally with
  | nil => rfl
  | cons kind kinds ih => exact ih _ _

theorem counted_switchEach (kinds : List Kind) :
    let tally := (m.switchEach context enable kinds {}).1
    tally.succeeded + tally.failed = kinds.length := by
  induction kinds generalizing m with
  | nil => rfl
  | cons kind kinds ih =>
    have hone := ih (m.switchKind context enable kind).2
    rw [switchEach_cons, switchEach_from]
    simp only [Tally.count_succeeded, Tally.count_failed, List.length_cons] at hone ⊢
    cases (m.switchKind context enable kind).1 <;> simp <;> omega

theorem switchSet_eq (set : KindSet) :
    m.switchSet context set enable =
      ((m.switchEach context enable set.kinds {}).1.reach,
        (m.switchEach context enable set.kinds {}).2) := by
  have hkinds : Kind.valid set.kinds = set.kinds :=
    Kind.valid_eq_self (Kind.invalid_not_mem_valid set.listed)
  rw [switchSet, switchKinds, hkinds]

/-- Requests for sets one after the other do what a request for all their kinds does, and their
progress is what that request counts. -/
theorem switchSets_eq {sets : List KindSet} (hsets : ∀ set ∈ sets, set.kinds ≠ [])
    {progress : NativeProgress} {tally : Tally} (hprogress : progress.Tells tally) :
    (m.switchSets context enable sets progress).1.Tells
        (m.switchEach context enable (sets.flatMap KindSet.kinds) tally).1 ∧
      (m.switchSets context enable sets progress).2 =
        (m.switchEach context enable (sets.flatMap KindSet.kinds) tally).2 := by
  induction sets generalizing m progress tally with
  | nil => exact ⟨hprogress, rfl⟩
  | cons set sets ih =>
    obtain ⟨hset, hrest⟩ := List.forall_mem_cons.mp hsets
    have hcounted := m.counted_switchEach context enable set.kinds
    have hone : _ ≠ 0 := hcounted.trans_ne (List.length_pos_iff.mpr hset).ne'
    rw [List.flatMap_cons, switchEach_append, switchEach_from, switchSets, switchSet_eq]
    exact ih _ hrest (hprogress.add hone)

theorem invalid_not_mem_requestedKinds (flags : UInt32) : .invalid ∉ requestedKinds flags := by
  have hall : ∀ bit ∈ List.range 7, .invalid ∉ kindsOfBit bit := by decide
  intro h
  obtain ⟨bit, hbit, hkind⟩ := List.mem_flatMap.mp h
  split at hkind
  · exact hall bit hbit hkind
  · cases hkind

/-- A request for categories is refused exactly if its word is zero or has a bit without a category,
and then nothing is asked of the client and nothing changes. Otherwise it is one request for the
kinds of all its categories, the lowest bit first, and tells how far that got; links to host
operations are asked for after it, whatever comes of that. All this holds whatever the client
answers. -/
theorem switchCategories_eq_switchKinds (m : Monitor) (context : ContextHandle) (flags : UInt32)
    (enable : Bool) :
    let result := m.switchCategories context flags enable
    let kinds := m.switchKinds context (requestedKinds flags) enable
    (result.1 = .error ↔ flags = 0 ∨ ∃ bit ≥ 7, flags.toNat.testBit bit) ∧
      (result.1 = .error → result.2 = m) ∧
      (result.1 ≠ .error → result.1 = kinds.1.native ∧
        result.2 = (kinds.2.switchKinds context [.externalCorrelation] true).2) := by
  intro result kinds
  cases hchosen : chosenCategories? flags with
  | none =>
    have hresult : result = (.error, m) := by
      simp only [result, switchCategories, hchosen]
    rw [hresult, ← chosenCategories?_eq_none_iff]
    exact ⟨iff_of_true rfl hchosen, fun _ => rfl, fun h => absurd rfl h⟩
  | some sets =>
    obtain ⟨htells, hafter⟩ :=
      m.switchSets_eq context enable (kinds_ne_nil_of_chosen hchosen) .start
    rw [flatMap_kinds_of_chosen hchosen] at htells hafter
    have hvalid := Kind.valid_eq_self (invalid_not_mem_requestedKinds flags)
    have hkinds : kinds = ((m.switchEach context enable (requestedKinds flags) {}).1.reach,
        (m.switchEach context enable (requestedKinds flags) {}).2) := by
      simp only [kinds, switchKinds, hvalid]
    have hresult : result =
        (kinds.1.native, (kinds.2.switchKinds context [.externalCorrelation] true).2) := by
      rw [hkinds, ← hafter, ← htells.reach]
      simp only [result, switchCategories, hchosen]
      rfl
    rw [hresult, ← chosenCategories?_eq_none_iff, hchosen]
    exact ⟨iff_of_false kinds.1.native_ne_error (by simp),
      fun h => absurd h kinds.1.native_ne_error, fun _ => ⟨rfl, rfl⟩⟩

/-! Two categories of two kinds each. Of the four kinds one is enabled already and one is refused,
and so are links to host operations. -/

def linksRefused : Monitor where
  enabled := EnabledKinds.empty.set ⟨1⟩ .function true
  gateway := { client := DeviceClient.willing.withFaults ⟨[], [.memcpy2, .externalCorrelation]⟩ }

theorem switchCategories_eq_switchKinds_in_part :
    let result := linksRefused.switchCategories ⟨1⟩ 10 true
    result.1 = .some ∧ result.2.enabled.contains ⟨1⟩ .externalCorrelation = false ∧
      result.2.gateway.calls = [.enableKind ⟨1⟩ .unifiedMemoryCounter, .enableKind ⟨1⟩ .memcpy2,
        .enableKind ⟨1⟩ .pcSampling, .enableKind ⟨1⟩ .externalCorrelation] := by
  intro result
  obtain ⟨herror, -, hkinds⟩ := switchCategories_eq_switchKinds linksRefused ⟨1⟩ 10 true
  have hchosen : result.1 ≠ .error := by
    intro h
    obtain hzero | ⟨bit, hbit, hset⟩ := herror.mp h
    · exact absurd hzero (by decide)
    · have hlarge : 2 ^ 7 ≤ 10 :=
        Nat.le_trans (Nat.pow_le_pow_right (by decide) hbit) (Nat.ge_two_pow_of_testBit hset)
      exact absurd hlarge (by decide)
  obtain ⟨hreach, hafter⟩ := hkinds hchosen
  rw [hreach, hafter]
  exact ⟨by decide, by decide, by decide⟩

end Monitor
end DeviceTrace
