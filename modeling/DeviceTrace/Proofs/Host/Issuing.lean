import DeviceTrace.Host.WorkerIds
import Mathlib.Algebra.Group.Nat.Defs
import Mathlib.Data.List.Nodup

/-!
# The ids that generators issue

Workers ask for generators and draw ids from them, in any order. An id is the number of its
generator and the number of the call, each of them as far as its bits reach: two ids are equal
exactly if both numbers agree in these bits. So ids are distinct until the generators or the calls
on one of them outnumber what their bits can tell apart, and zero is issued only when both numbers
wrap around.
-/

namespace DeviceTrace

/-- The id of a call on a generator, both counted from 1. -/
def packedId (worker call : Nat) : UInt64 :=
  .ofNat worker <<< countBits ||| (.ofNat call &&& ((1 <<< countBits) - 1))

theorem toNat_packedId (worker call : Nat) :
    (packedId worker call).toNat = worker % 2 ^ 16 * 2 ^ 48 + call % 2 ^ 48 := by
  have hhigh : (UInt64.ofNat worker <<< countBits).toNat = 2 ^ 48 * (worker % 2 ^ 16) := by
    rw [UInt64.toNat_shiftLeft, UInt64.toNat_ofNat', Nat.shiftLeft_eq]
    simp [countBits]
    omega
  have hlow : (UInt64.ofNat call &&& ((1 <<< countBits) - 1)).toNat = call % 2 ^ 48 := by
    rw [UInt64.toNat_and, UInt64.toNat_ofNat']
    have hmask : ((1 <<< countBits) - 1 : UInt64).toNat = 2 ^ 48 - 1 := by decide
    rw [hmask, Nat.and_two_pow_sub_one_eq_mod]
    omega
  rw [packedId, UInt64.toNat_or, hhigh, hlow,
    ← Nat.two_pow_add_eq_or_of_lt (Nat.mod_lt _ (by decide)), Nat.mul_comm]

theorem packedId_eq_iff {worker call worker' call' : Nat} :
    packedId worker call = packedId worker' call' ↔
      worker % 2 ^ 16 = worker' % 2 ^ 16 ∧ call % 2 ^ 48 = call' % 2 ^ 48 := by
  rw [← UInt64.toNat_inj, toNat_packedId, toNat_packedId]
  omega

theorem packedId_eq_zero_iff {worker call : Nat} :
    packedId worker call = 0 ↔ 2 ^ 16 ∣ worker ∧ 2 ^ 48 ∣ call := by
  rw [← UInt64.toNat_inj, toNat_packedId, UInt64.toNat_zero]
  omega

/-! ## Generators -/

/-- The generator with this number after some calls. -/
def IdGenerator.after (worker calls : Nat) : IdGenerator where
  base := .ofNat worker <<< countBits
  issued := .ofNat calls

theorem WorkerIds.generator_ofNat (n : Nat) :
    generator ⟨.ofNat n⟩ = (.after (n + 1) 0, ⟨.ofNat (n + 1)⟩) := by
  rw [generator, IdGenerator.after, UInt64.ofNat_add]
  rfl

theorem IdGenerator.draw_after (worker calls : Nat) :
    (after worker calls).draw = (packedId worker (calls + 1), after worker (calls + 1)) := by
  rw [draw, after, after, packedId, UInt64.ofNat_add calls]
  rfl

/-! ## Requests -/

/-- What workers ask for, one after the other. -/
inductive IdRequest
  | generator
  /-- The next id of the generator that was made after `place` others. -/
  | draw (place : Nat)
  deriving DecidableEq

/-- An id with the number of its generator and of the call on it, both counted from 1. -/
structure IssuedId where
  worker : Nat
  call : Nat
  id : UInt64

/-- The generators made so far and the ids drawn from them, in order. -/
structure IdIssuer where
  ids : WorkerIds := {}
  generators : List IdGenerator := []
  issued : List IssuedId := []

namespace IdIssuer

/-- How many ids have been drawn from a generator. -/
def calls (s : IdIssuer) (worker : Nat) : Nat := s.issued.countP (·.worker = worker)

def serve (s : IdIssuer) : IdRequest → IdIssuer
  | .generator =>
    let (generator, ids) := s.ids.generator
    { s with ids, generators := s.generators ++ [generator] }
  | .draw place =>
    match s.generators[place]? with
    | none => s
    | some generator =>
      let (id, generator) := generator.draw
      { s with
        generators := s.generators.set place generator
        issued := s.issued ++ [⟨place + 1, s.calls (place + 1) + 1, id⟩] }

/-- All that has been issued after some requests. -/
def ofRequests (requests : List IdRequest) : IdIssuer := requests.foldl serve {}

/-- The generators count what has been asked of them, and each id is the one of its call. -/
structure Consistent (s : IdIssuer) : Prop where
  ids : s.ids = ⟨.ofNat s.generators.length⟩
  generator : ∀ {place g}, s.generators[place]? = some g →
    g = IdGenerator.after (place + 1) (s.calls (place + 1))
  id : ∀ i ∈ s.issued, i.id = packedId i.worker i.call
  worker : ∀ i ∈ s.issued, 0 < i.worker ∧ i.worker ≤ s.generators.length
  call : ∀ i ∈ s.issued, 0 < i.call ∧ i.call ≤ s.calls i.worker
  distinct : (s.issued.map fun i => (i.worker, i.call)).Nodup

variable {s : IdIssuer}

theorem consistent_start : Consistent {} where
  ids := rfl
  generator := by simp
  id := by simp
  worker := by simp
  call := by simp
  distinct := List.nodup_nil

theorem Consistent.calls_of_lt (hs : s.Consistent) {worker : Nat}
    (h : s.generators.length < worker) : s.calls worker = 0 := by
  rw [calls, List.countP_eq_zero]
  intro i hi
  have := (hs.worker i hi).2
  simp only [decide_eq_true_eq]
  omega

theorem Consistent.serve_generator (hs : s.Consistent) : (s.serve .generator).Consistent := by
  rw [serve, hs.ids, WorkerIds.generator_ofNat]
  refine ⟨?ids, ?generator, hs.id, ?worker, hs.call, hs.distinct⟩
  case ids => rw [List.length_append, List.length_singleton]
  case generator =>
    intro place g hg
    rw [List.getElem?_append] at hg
    split at hg
    · exact hs.generator hg
    · -- the new generator has the next number, under which nothing has been drawn
      rw [List.getElem?_singleton, Option.ite_none_right_eq_some] at hg
      obtain ⟨hlast, heq⟩ := hg
      obtain rfl : place = s.generators.length := by omega
      have hnone : s.calls (s.generators.length + 1) = 0 := hs.calls_of_lt (Nat.lt_succ_self _)
      rw [← Option.some.inj heq, ← hnone]
      rfl
  case worker =>
    intro i hi
    obtain ⟨hpos, hle⟩ := hs.worker i hi
    rw [List.length_append]
    exact ⟨hpos, Nat.le_add_right_of_le hle⟩

/-- A generator that has been made gives the id of its next call. -/
theorem Consistent.draw_eq (hs : s.Consistent) {place : Nat}
    (hplace : place < s.generators.length) :
    s.serve (.draw place) =
      { s with
        generators := s.generators.set place (.after (place + 1) (s.calls (place + 1) + 1))
        issued := s.issued ++ [⟨place + 1, s.calls (place + 1) + 1,
          packedId (place + 1) (s.calls (place + 1) + 1)⟩] } := by
  have hg := List.getElem?_eq_getElem hplace
  simp only [serve, hg, hs.generator hg, IdGenerator.draw_after]

theorem Consistent.calls_draw (hs : s.Consistent) {place : Nat}
    (hplace : place < s.generators.length) (worker : Nat) :
    (s.serve (.draw place)).calls worker =
      s.calls worker + if place + 1 = worker then 1 else 0 := by
  rw [hs.draw_eq hplace]
  simp [calls, List.countP_append, List.countP_singleton]

theorem Consistent.serve_draw (hs : s.Consistent) (place : Nat) :
    (s.serve (.draw place)).Consistent := by
  by_cases hplace : place < s.generators.length
  · have hcalls := hs.calls_draw hplace
    rw [hs.draw_eq hplace] at hcalls ⊢
    refine ⟨?ids, ?generator, ?id, ?worker, ?call, ?distinct⟩
    case ids => rw [List.length_set, hs.ids]
    case generator =>
      intro other g' hg'
      rw [List.getElem?_set, if_pos hplace] at hg'
      rw [hcalls]
      split at hg'
      · rename_i hother
        subst hother
        rw [if_pos rfl, ← Option.some.inj hg']
      · rename_i hother
        rw [if_neg (by omega)]
        exact hs.generator hg'
    case id =>
      intro i hi
      rcases List.mem_append.mp hi with hi | hlast
      · exact hs.id i hi
      · rw [List.mem_singleton.mp hlast]
    case worker =>
      intro i hi
      rw [List.length_set]
      rcases List.mem_append.mp hi with hi | hlast
      · exact hs.worker i hi
      · rw [List.mem_singleton.mp hlast]
        exact ⟨Nat.succ_pos place, hplace⟩
    case call =>
      intro i hi
      rw [hcalls]
      rcases List.mem_append.mp hi with hi | hlast
      · obtain ⟨hpos, hle⟩ := hs.call i hi
        exact ⟨hpos, Nat.le_add_right_of_le hle⟩
      · rw [List.mem_singleton.mp hlast, if_pos rfl]
        exact ⟨Nat.succ_pos _, Nat.le_refl _⟩
    case distinct =>
      rw [List.map_append, List.nodup_append]
      refine ⟨hs.distinct, List.nodup_singleton _, ?_⟩
      -- the new call has a number that its generator has not reached before
      rintro pair hpair last hlast rfl
      obtain ⟨i, hi, heq⟩ := List.mem_map.mp hpair
      have hle := (hs.call i hi).2
      rw [← heq] at hlast
      simp only [List.map_cons, List.map_nil, List.mem_singleton, Prod.mk.injEq] at hlast
      rw [hlast.1, hlast.2] at hle
      omega
  · have hnone : s.generators[place]? = none := List.getElem?_eq_none (Nat.le_of_not_lt hplace)
    rw [serve, hnone]
    exact hs

/-! ## Whole runs -/

theorem Consistent.serve (hs : s.Consistent) (request : IdRequest) :
    (s.serve request).Consistent := by
  cases request with
  | generator => exact hs.serve_generator
  | draw place => exact hs.serve_draw place

theorem consistent_ofRequests (requests : List IdRequest) : (ofRequests requests).Consistent :=
  List.foldlRecOn requests IdIssuer.serve consistent_start fun _ hs request _ => hs.serve request

theorem length_generators_serve (s : IdIssuer) (request : IdRequest) :
    (s.serve request).generators.length =
      s.generators.length + if request = .generator then 1 else 0 := by
  cases request with
  | generator => exact List.length_append
  | draw place =>
    simp only [serve, reduceCtorEq, if_false, Nat.add_zero]
    split
    · rfl
    · exact List.length_set

theorem length_generators_ofRequests (requests : List IdRequest) :
    (ofRequests requests).generators.length = requests.count .generator := by
  have hrun (s : IdIssuer) : (requests.foldl IdIssuer.serve s).generators.length =
      s.generators.length + requests.count .generator := by
    induction requests generalizing s with
    | nil => rfl
    | cons request rest ih =>
      rw [List.foldl_cons, ih, length_generators_serve, List.count_cons]
      simp only [beq_iff_eq]
      omega
  rw [ofRequests, hrun]
  exact Nat.zero_add _

/-- Where the numbers of generators and calls fit their bits, an id gives both of them back. -/
theorem Consistent.nodup_ids (hs : s.Consistent) (hworkers : s.generators.length ≤ 2 ^ 16)
    (hcalls : ∀ worker, s.calls worker ≤ 2 ^ 48) : (s.issued.map (·.id)).Nodup := by
  have hissued : s.issued.Nodup := hs.distinct.of_map
  have hnumbers := List.inj_on_of_nodup_map hs.distinct
  refine hissued.map_on ?_
  intro i hi j hj heq
  rw [hs.id i hi, hs.id j hj, packedId_eq_iff] at heq
  -- both count from 1, so only the last number of each wraps, and it does so to an unused zero
  obtain ⟨hiw, hiw'⟩ := hs.worker i hi
  obtain ⟨hjw, hjw'⟩ := hs.worker j hj
  obtain ⟨hic, hic'⟩ := hs.call i hi
  obtain ⟨hjc, hjc'⟩ := hs.call j hj
  have hicalls := hcalls i.worker
  have hjcalls := hcalls j.worker
  exact hnumbers hi hj (Prod.ext (by omega) (by omega))

/-- In any run of requests an id holds the number of its generator modulo 2^16 above the number of
its call modulo 2^48, and every generator that has been made gives a further one. So two ids are
equal exactly if these numbers agree, no id is issued twice while no more than 2^16 generators are
made and none of them draws more than 2^48 ids, and zero is the id of the calls with which both
numbers have wrapped. -/
theorem ids_of_run (requests : List IdRequest) :
    let s := ofRequests requests
    (∀ i ∈ s.issued, i.id.toNat = i.worker % 2 ^ 16 * 2 ^ 48 + i.call % 2 ^ 48) ∧
    (∀ place < requests.count .generator, ∃ id,
      (s.serve (.draw place)).issued =
        s.issued ++ [⟨place + 1, s.calls (place + 1) + 1, id⟩]) ∧
    (∀ i ∈ s.issued, ∀ j ∈ s.issued,
      (i.id = j.id ↔
        i.worker % 2 ^ 16 = j.worker % 2 ^ 16 ∧ i.call % 2 ^ 48 = j.call % 2 ^ 48)) ∧
    (requests.count .generator ≤ 2 ^ 16 → (∀ worker, s.calls worker ≤ 2 ^ 48) →
      (s.issued.map (·.id)).Nodup) ∧
    ∀ i ∈ s.issued, (i.id = 0 ↔ 2 ^ 16 ∣ i.worker ∧ 2 ^ 48 ∣ i.call) := by
  have hs := consistent_ofRequests requests
  rw [← length_generators_ofRequests]
  refine ⟨?value, ?further, ?equal, ?distinct, ?zero⟩
  case value =>
    intro i hi
    rw [hs.id i hi, toNat_packedId]
  case further =>
    intro place hplace
    rw [hs.draw_eq hplace]
    exact ⟨_, rfl⟩
  case equal =>
    intro i hi j hj
    rw [hs.id i hi, hs.id j hj, packedId_eq_iff]
  case distinct =>
    intro hworkers hcalls
    exact hs.nodup_ids hworkers hcalls
  case zero =>
    intro i hi
    rw [hs.id i hi, packedId_eq_zero_iff]

theorem ids_of_run_of_two_generators :
    let s := ofRequests [.generator, .draw 0, .draw 1, .generator, .draw 1, .draw 0]
    s.issued.map (·.id) = [0x1000000000001, 0x2000000000001, 0x1000000000002] ∧
      (s.issued.map (·.id)).Nodup := by
  intro s
  have hcalls (worker : Nat) : s.calls worker ≤ 2 ^ 48 :=
    Nat.le_trans List.countP_le_length (by decide)
  obtain ⟨-, -, -, hdistinct, -⟩ :=
    ids_of_run [.generator, .draw 0, .draw 1, .generator, .draw 1, .draw 0]
  exact ⟨by decide, hdistinct (by decide) hcalls⟩

end IdIssuer

end DeviceTrace
