import Mathlib.Data.List.Basic

/-!
# Chains of owners

In a store an entry may point to the entry that owns it, which was added before it. Outward from an
entry lies one chain of owners, and it is finite, because indexes get smaller along it. With every
entry of a chain go the items that belong to its key. Items of different keys are different items,
so the whole chain has no more of them than there are.
-/

namespace DeviceTrace

/-- An entry of a store with its key, its owner, the owner of that, and so on. -/
inductive OwnerChain {κ α : Type} (find? : κ → Option α) (owner? : α → Option κ) :
    κ → List (κ × α) → Prop
  | last {id : κ} {a : α} : find? id = some a → owner? a = none →
      OwnerChain find? owner? id [(id, a)]
  | next {id outer : κ} {a : α} {chain : List (κ × α)} :
      find? id = some a → owner? a = some outer → OwnerChain find? owner? outer chain →
      OwnerChain find? owner? id ((id, a) :: chain)

/-- The owner of an entry is in the store, with a smaller index. -/
structure OwnedBefore {κ α : Type} (index : κ → Nat) (find? : κ → Option α)
    (owner? : α → Option κ) : Prop where
  index_lt : ∀ {id outer a}, find? id = some a → owner? a = some outer → index outer < index id
  isSome_owner : ∀ {id outer a}, find? id = some a → owner? a = some outer → (find? outer).isSome

section

variable {κ α : Type} {index : κ → Nat} {find? : κ → Option α} {owner? : α → Option κ} {id : κ}
  {chain : List (κ × α)}

namespace OwnerChain

theorem exists_cons (hchain : OwnerChain find? owner? id chain) :
    ∃ a rest, chain = (id, a) :: rest ∧ find? id = some a := by
  cases hchain with
  | last hfind _ | next hfind _ _ => exact ⟨_, _, rfl, hfind⟩

theorem unique {other : List (κ × α)} (hchain : OwnerChain find? owner? id chain)
    (hother : OwnerChain find? owner? id other) : other = chain := by
  induction hchain generalizing other with
  | last hfind hlast =>
    cases hother with
    | last hfind' _ =>
      cases hfind.symm.trans hfind'
      rfl
    | next hfind' howner _ =>
      cases hfind.symm.trans hfind'
      cases hlast.symm.trans howner
  | next hfind howner _ ih =>
    cases hother with
    | last hfind' hlast =>
      cases hfind.symm.trans hfind'
      cases howner.symm.trans hlast
    | next hfind' howner' hrest =>
      cases hfind.symm.trans hfind'
      cases howner.symm.trans howner'
      rw [ih hrest]

end OwnerChain

theorem OwnedBefore.exists_chain (hbefore : OwnedBefore index find? owner?) (id : κ)
    (hid : (find? id).isSome) : ∃ chain, OwnerChain find? owner? id chain := by
  induction hn : index id using Nat.strongRecOn generalizing id with
  | ind n ih =>
    subst hn
    obtain ⟨a, hfind⟩ := Option.isSome_iff_exists.mp hid
    cases howner : owner? a with
    | none => exact ⟨_, .last hfind howner⟩
    | some outer =>
      have hlt : index outer < index id := hbefore.index_lt hfind howner
      obtain ⟨chain, hchain⟩ :=
        ih (index outer) hlt outer (hbefore.isSome_owner hfind howner) rfl
      exact ⟨_, .next hfind howner hchain⟩

/-! ## Items along a chain -/

variable {ι : Type} (key : ι → κ) [DecidableEq κ]

/-- The items of one key and the items with keys of smaller indexes are apart. -/
theorem countP_add_countP_le {outer : κ} (hlt : index outer < index id) (items : List ι) :
    items.countP (key · = id) + items.countP (fun item => index (key item) ≤ index outer) ≤
      items.countP fun item => index (key item) ≤ index id := by
  induction items with
  | nil => simp
  | cons item items ih =>
    simp only [List.countP_cons, decide_eq_true_eq]
    by_cases hkey : key item = id
    · rw [if_pos hkey, hkey, if_neg (Nat.not_le_of_lt hlt), if_pos (Nat.le_refl _)]
      omega
    · rw [if_neg hkey]
      split
      · rw [if_pos (by omega)]
        omega
      · omega

/-- Let a chain have for each entry one level and one more for each item of its key. The levels are
then entries not added later than the first one, and items of such entries. -/
theorem OwnedBefore.length_flatMap_le (hbefore : OwnedBefore index find? owner?) (items : List ι)
    {β : Type} {levels : κ × α → List β}
    (hlevels : ∀ id a, (levels (id, a)).length = items.countP (key · = id) + 1)
    (hchain : OwnerChain find? owner? id chain) :
    (chain.flatMap levels).length ≤
      index id + 1 + items.countP fun item => index (key item) ≤ index id := by
  induction hchain with
  | @last id a _ _ =>
    have hcount : items.countP (key · = id) ≤
        items.countP fun item => index (key item) ≤ index id :=
      List.countP_mono_left fun item _ hitem => by simp_all
    rw [List.flatMap_singleton, hlevels]
    omega
  | @next id outer a rest hfind howner _ ih =>
    have hlt : index outer < index id := hbefore.index_lt hfind howner
    have hcount := countP_add_countP_le key hlt items
    rw [List.flatMap_cons, List.length_append, hlevels]
    omega

end

/-- In a list with the latest item first, an item with `n` items behind it was the one after the
first `n`. -/
theorem getElem?_reverse_of_suffix {ι : Type} {item : ι} {rest items : List ι}
    (h : (item :: rest) <:+ items) : items.reverse[rest.length]? = some item := by
  obtain ⟨front, rfl⟩ := h
  simp

end DeviceTrace
