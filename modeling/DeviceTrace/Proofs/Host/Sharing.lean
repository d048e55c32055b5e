import DeviceTrace.Host.Worker
import Mathlib.Algebra.Group.Nat.Defs
import Mathlib.Data.List.Nodup
import Mathlib.Logic.Function.Basic

/-!
# Workers that share their counters

Workers enter and leave regions and operations in any order, and all of them draw ids from the same
two counters. A counter hands out the numbers from 1 to 2^64 - 1 and then begins at 1 again: zero is
passed over, also when other workers draw between the fetch that meets it and the next one. So no id
comes a second time before all of them have been handed out. What a worker is inside of is told by
its own last turn in the same scope, whatever other workers do and whatever it does in the other
scope.
-/

namespace DeviceTrace

/-! ## One counter -/

/-- The number of ids that there are. -/
def idPeriod : Nat := 2 ^ 64 - 1

namespace IdCounter

/-- One fetch: the number that the counter has come to, which may be zero. -/
def fetch (c : IdCounter) : UInt64 × IdCounter := (c.upcoming, ⟨c.upcoming + 1⟩)

/-- The counter after a fetch that has met zero. Where it stands at an id, nothing is fetched. -/
def passZero (c : IdCounter) : IdCounter := if c.fetch.1 = 0 then c.fetch.2 else c

/-- A draw fetches until it gets a number other than zero. -/
theorem draw_eq_fetch (c : IdCounter) :
    c.draw = if h : c.fetch.1 = 0 then c.fetch.2.draw else (⟨c.fetch.1, h⟩, c.fetch.2) := by
  by_cases h : c.upcoming = 0
  · have hfetch : c.fetch = (0, ⟨1⟩) := by rw [fetch, h]; rfl
    rw [draw, dif_pos h, hfetch]
    rfl
  · have hfetch : c.fetch.1 ≠ 0 := h
    rw [draw, dif_neg h, dif_neg hfetch]
    rfl

/-- Passing over zero takes no id away. -/
theorem draw_passZero (c : IdCounter) : c.passZero.draw = c.draw := by
  rw [passZero]
  split
  · rename_i h
    rw [c.draw_eq_fetch, dif_pos h]
  · rfl

/-- Behind an id the counter stands at the next number, which may be zero. -/
theorem draw_snd (c : IdCounter) : c.draw.2 = ⟨c.draw.1.raw + 1⟩ := by
  unfold draw
  split
  · rfl
  · rfl

theorem raw_draw_cases (raw : UInt64) :
    (raw.toNat = 0 ∧ (draw ⟨raw⟩).1.raw.toNat = 1) ∨
      (raw.toNat ≠ 0 ∧ (draw ⟨raw⟩).1.raw.toNat = raw.toNat) := by
  unfold draw
  by_cases h : raw = 0
  · rw [dif_pos h, h]
    exact .inl ⟨rfl, rfl⟩
  · rw [dif_neg h]
    exact .inr ⟨fun hzero => h (UInt64.toNat_inj.mp hzero), rfl⟩

/-- The counter has handed out this many ids, so the next one in their order is up. -/
def HasIssued (c : IdCounter) (n : Nat) : Prop := c.draw.1.raw.toNat = n % idPeriod + 1

theorem hasIssued_start : HasIssued {} 0 := by
  unfold HasIssued
  decide

theorem HasIssued.passZero {c : IdCounter} {n : Nat} (h : c.HasIssued n) :
    c.passZero.HasIssued n := by
  rw [HasIssued, draw_passZero]
  exact h

theorem HasIssued.draw {c : IdCounter} {n : Nat} (h : c.HasIssued n) :
    c.draw.2.HasIssued (n + 1) := by
  have hnext : (c.draw.1.raw + 1).toNat = (c.draw.1.raw.toNat + 1) % 2 ^ 64 :=
    UInt64.toNat_add ..
  rw [HasIssued] at h ⊢
  rw [draw_snd]
  simp only [idPeriod] at *
  rcases raw_draw_cases (c.draw.1.raw + 1) with ⟨hzero, hdraw⟩ | ⟨hne, hdraw⟩
  · omega
  · omega

end IdCounter

/-! ## One worker -/

/-- What a worker can be inside of, each with ids of its own. -/
inductive HostScope
  | region
  | operation
  deriving DecidableEq

def HostCounters.counter (c : HostCounters) : HostScope → IdCounter
  | .region => c.regions
  | .operation => c.operations

def HostCounters.passZero (c : HostCounters) : HostScope → HostCounters
  | .region => { c with regions := c.regions.passZero }
  | .operation => { c with operations := c.operations.passZero }

namespace HostWorker

def inside (w : HostWorker) : HostScope → Option CorrelationId
  | .region => w.region
  | .operation => w.operation

def enter (w : HostWorker) (counters : HostCounters) :
    HostScope → CorrelationId × HostWorker × HostCounters
  | .region => w.enterRegion counters
  | .operation => w.startOperation counters

def leave (w : HostWorker) : HostScope → Option CorrelationId × HostWorker
  | .region => w.leaveRegion
  | .operation => w.finishOperation

variable (w : HostWorker) (counters : HostCounters) (scope other : HostScope)

theorem enter_id : (w.enter counters scope).1 = (counters.counter scope).draw.1 := by
  cases scope <;> rfl

theorem inside_enter : (w.enter counters scope).2.1.inside other =
    if other = scope then some (counters.counter scope).draw.1 else w.inside other := by
  cases scope <;> cases other <;> rfl

theorem counter_enter : (w.enter counters scope).2.2.counter other =
    if other = scope then (counters.counter scope).draw.2 else counters.counter other := by
  cases scope <;> cases other <;> rfl

theorem leave_id : (w.leave scope).1 = w.inside scope := by
  cases scope <;> rfl

theorem inside_leave : (w.leave scope).2.inside other =
    if other = scope then none else w.inside other := by
  cases scope <;> cases other <;> rfl

end HostWorker

theorem HostCounters.counter_passZero (c : HostCounters) (scope other : HostScope) :
    (c.passZero scope).counter other =
      if other = scope then (c.counter other).passZero else c.counter other := by
  cases scope <;> cases other <;> rfl

/-! ## Many workers -/

/-- What happens next. A worker that enters a scope may meet zero and let others go first before it
fetches again; then zero has been passed over already. -/
inductive HostTurn
  | enter (worker : Nat) (scope : HostScope)
  | leave (worker : Nat) (scope : HostScope)
  | passZero (scope : HostScope)
  deriving DecidableEq

/-- What a worker has been told when it entered or left a scope. -/
structure HostAnswer where
  worker : Nat
  scope : HostScope
  entered : Bool
  id : Option CorrelationId
  deriving DecidableEq

/-- Workers, their counters, and all that has been answered, in order. -/
structure HostCrew where
  counters : HostCounters := {}
  workers : Nat → HostWorker := fun _ => {}
  answers : List HostAnswer := []

/-- The ids of a scope that workers have been given, in order. -/
def issuedIds (answers : List HostAnswer) (scope : HostScope) : List CorrelationId :=
  answers.filterMap fun a => if a.scope = scope ∧ a.entered then a.id else none

/-- The id with which a worker has entered a scope last, if it has not left it since. -/
def insideBy (answers : List HostAnswer) (worker : Nat) (scope : HostScope) :
    Option CorrelationId :=
  (answers.filter fun a => a.worker = worker ∧ a.scope = scope).getLast?.bind fun a =>
    if a.entered then a.id else none

section

variable (answers : List HostAnswer) (a : HostAnswer) (worker : Nat) (scope : HostScope)

theorem issuedIds_append : issuedIds (answers ++ [a]) scope =
    issuedIds answers scope ++ (if a.scope = scope ∧ a.entered then a.id else none).toList := by
  rw [issuedIds, List.filterMap_append]
  rfl

theorem insideBy_append : insideBy (answers ++ [a]) worker scope =
    if a.worker = worker ∧ a.scope = scope then (if a.entered then a.id else none)
    else insideBy answers worker scope := by
  unfold insideBy
  rw [List.filter_append, List.filter_singleton]
  split
  · rename_i h
    simp [h]
  · rename_i h
    simp [h]

end

namespace HostCrew

def serve (s : HostCrew) : HostTurn → HostCrew
  | .enter worker scope =>
    let (id, state, counters) := (s.workers worker).enter s.counters scope
    { counters, workers := Function.update s.workers worker state
      answers := s.answers ++ [⟨worker, scope, true, some id⟩] }
  | .leave worker scope =>
    let (id, state) := (s.workers worker).leave scope
    { s with
      workers := Function.update s.workers worker state
      answers := s.answers ++ [⟨worker, scope, false, id⟩] }
  | .passZero scope => { s with counters := s.counters.passZero scope }

/-- The crew after some turns. -/
def ofTurns (turns : List HostTurn) : HostCrew := turns.foldl serve {}

/-- The ids of a scope that have been given in this crew. -/
def issued (s : HostCrew) (scope : HostScope) : List CorrelationId := issuedIds s.answers scope

/-- The counters go with the ids that have been given, and the workers with what they were told. -/
structure Consistent (s : HostCrew) : Prop where
  counter : ∀ scope, (s.counters.counter scope).HasIssued (s.issued scope).length
  ids : ∀ scope, (s.issued scope).map (·.raw.toNat) =
    (List.range (s.issued scope).length).map (· % idPeriod + 1)
  inside : ∀ worker scope, (s.workers worker).inside scope = insideBy s.answers worker scope

variable {s : HostCrew}

theorem consistent_start : Consistent {} where
  counter scope := by
    cases scope with
    | region => exact IdCounter.hasIssued_start
    | operation => exact IdCounter.hasIssued_start
  ids scope := rfl
  inside worker scope := by cases scope <;> rfl

section

variable (s : HostCrew) (worker someone : Nat) (scope other : HostScope)

theorem answers_enter : (s.serve (.enter worker scope)).answers =
    s.answers ++ [⟨worker, scope, true, some (s.counters.counter scope).draw.1⟩] := by
  rw [← (s.workers worker).enter_id]
  rfl

theorem answers_leave : (s.serve (.leave worker scope)).answers =
    s.answers ++ [⟨worker, scope, false, (s.workers worker).inside scope⟩] := by
  rw [← HostWorker.leave_id]
  rfl

theorem inside_enter : ((s.serve (.enter worker scope)).workers someone).inside other =
    if worker = someone ∧ scope = other then some (s.counters.counter scope).draw.1
    else (s.workers someone).inside other := by
  change (Function.update s.workers worker ((s.workers worker).enter s.counters scope).2.1
    someone).inside other = _
  by_cases hworker : someone = worker
  · rw [hworker, Function.update_self, HostWorker.inside_enter]
    simp [eq_comm]
  · rw [Function.update_of_ne hworker, if_neg fun h => hworker h.1.symm]

theorem inside_leave : ((s.serve (.leave worker scope)).workers someone).inside other =
    if worker = someone ∧ scope = other then none else (s.workers someone).inside other := by
  change (Function.update s.workers worker ((s.workers worker).leave scope).2
    someone).inside other = _
  by_cases hworker : someone = worker
  · rw [hworker, Function.update_self, HostWorker.inside_leave]
    simp [eq_comm]
  · rw [Function.update_of_ne hworker, if_neg fun h => hworker h.1.symm]

theorem counter_enter : (s.serve (.enter worker scope)).counters.counter other =
    if other = scope then (s.counters.counter scope).draw.2 else s.counters.counter other :=
  HostWorker.counter_enter ..

theorem issued_enter : (s.serve (.enter worker scope)).issued other =
    s.issued other ++ if other = scope then [(s.counters.counter scope).draw.1] else [] := by
  rw [issued, answers_enter, issuedIds_append, issued]
  by_cases h : other = scope
  · simp [h]
  · simp [h, Ne.symm h]

theorem issued_leave : (s.serve (.leave worker scope)).issued other = s.issued other := by
  rw [issued, answers_leave, issuedIds_append]
  simp [issued]

end

theorem Consistent.serve_enter (hs : s.Consistent) (worker : Nat) (scope : HostScope) :
    (s.serve (.enter worker scope)).Consistent where
  counter other := by
    rw [issued_enter, counter_enter]
    split
    · rename_i h
      subst h
      rw [List.length_append]
      exact (hs.counter other).draw
    · rw [List.append_nil]
      exact hs.counter other
  ids other := by
    rw [issued_enter]
    split
    · rename_i h
      subst h
      rw [List.length_append, List.length_singleton, List.range_succ, List.map_append,
        List.map_append, hs.ids, List.map_singleton, List.map_singleton, hs.counter other]
    · rw [List.append_nil]
      exact hs.ids other
  inside someone other := by
    rw [answers_enter, insideBy_append, inside_enter, hs.inside]
    rfl

theorem Consistent.serve_leave (hs : s.Consistent) (worker : Nat) (scope : HostScope) :
    (s.serve (.leave worker scope)).Consistent where
  counter other := by
    rw [issued_leave]
    exact hs.counter other
  ids other := by
    rw [issued_leave]
    exact hs.ids other
  inside someone other := by
    rw [answers_leave, insideBy_append, inside_leave, hs.inside someone]
    rfl

theorem Consistent.serve_passZero (hs : s.Consistent) (scope : HostScope) :
    (s.serve (.passZero scope)).Consistent where
  counter other := by
    rw [serve, HostCounters.counter_passZero]
    split
    · exact (hs.counter other).passZero
    · exact hs.counter other
  ids := hs.ids
  inside := hs.inside

/-! ## Whole runs -/

theorem Consistent.serve (hs : s.Consistent) (turn : HostTurn) : (s.serve turn).Consistent := by
  cases turn with
  | enter worker scope => exact hs.serve_enter worker scope
  | leave worker scope => exact hs.serve_leave worker scope
  | passZero scope => exact hs.serve_passZero scope

theorem consistent_ofTurns (turns : List HostTurn) : (ofTurns turns).Consistent :=
  List.foldlRecOn turns HostCrew.serve consistent_start fun _ hs turn _ => hs.serve turn

/-- Ids that have not come full circle are distinct. -/
theorem Consistent.nodup_issued (hs : s.Consistent) {scope : HostScope}
    (h : (s.issued scope).length ≤ idPeriod) : (s.issued scope).Nodup := by
  have hraw : ((s.issued scope).map (·.raw.toNat)).Nodup := by
    rw [hs.ids]
    refine List.nodup_range.map_on fun k hk k' hk' heq => ?_
    rw [List.mem_range] at hk hk'
    rw [Nat.mod_eq_of_lt (by omega), Nat.mod_eq_of_lt (by omega)] at heq
    omega
  exact hraw.of_map

/-- After any turns of any number of workers, one that enters a scope is given the next id of the
scope: the ids count from 1 to 2^64 - 1 and then from 1 again. None of them is zero, and as long as
fewer than 2^64 have been given, all are distinct. A worker is inside of what it has entered last
and not left since, by its own answers in the scope alone, and this is what it is told when it
leaves. -/
theorem ids_of_turns (turns : List HostTurn) (scope : HostScope) :
    let s := ofTurns turns
    let ids := s.issued scope
    (∀ worker, ∃ id, id.raw.toNat = ids.length % (2 ^ 64 - 1) + 1 ∧
      (s.serve (.enter worker scope)).answers =
        s.answers ++ [⟨worker, scope, true, some id⟩]) ∧
    ids.map (·.raw.toNat) = (List.range ids.length).map (· % (2 ^ 64 - 1) + 1) ∧
    (∀ id ∈ ids, id.raw ≠ 0) ∧
    (ids.length < 2 ^ 64 → ids.Nodup) ∧
    (∀ worker, (s.workers worker).inside scope = insideBy s.answers worker scope) ∧
    ∀ worker, (s.serve (.leave worker scope)).answers =
      s.answers ++ [⟨worker, scope, false, insideBy s.answers worker scope⟩] := by
  intro s ids
  have hs : s.Consistent := consistent_ofTurns turns
  refine ⟨?next, hs.ids scope, fun id _ => id.ne_zero, ?distinct, ?inside, ?left⟩
  case next =>
    intro worker
    exact ⟨_, hs.counter scope, answers_enter s worker scope⟩
  case distinct =>
    intro h
    exact hs.nodup_issued (Nat.le_sub_one_of_lt h)
  case inside =>
    intro worker
    exact hs.inside worker scope
  case left =>
    intro worker
    rw [answers_leave, hs.inside]

/-! Two workers start operations, one of them twice, while the other leaves a region. -/

theorem ids_of_turns_of_two_workers :
    let s := ofTurns [.enter 0 .operation, .enter 1 .region, .enter 1 .operation,
      .leave 1 .region, .enter 0 .operation, .leave 1 .operation]
    (s.issued .operation).map (·.raw) = [1, 2, 3] ∧ (s.issued .operation).Nodup ∧
      ((s.workers 0).inside .operation).map (·.raw) = some 3 ∧
      (s.workers 1).inside .operation = none := by
  intro s
  obtain ⟨-, -, -, hdistinct, hinside, -⟩ := ids_of_turns [.enter 0 .operation,
    .enter 1 .region, .enter 1 .operation, .leave 1 .region, .enter 0 .operation,
    .leave 1 .operation] .operation
  refine ⟨by decide, hdistinct (by decide), ?_, ?_⟩
  · rw [hinside 0]
    decide
  · rw [hinside 1]
    decide

end HostCrew
end DeviceTrace
