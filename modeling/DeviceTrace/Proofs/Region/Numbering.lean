import DeviceTrace.Proofs.Region.Levels

/-!
# The number of a worker in an outer team

On its way outward a walk goes from team to team, by steps to a parent and by steps to a scheduler.
In a team that lies around another one a worker goes by the number of the inner team's master. The
inner team is the one that was left in the last change of team, as long as that was a step to a
parent. A step to a scheduler leaves no trace: what counts behind it is the team that was left in an
earlier step to a parent, and if there is none, the worker goes by its own number.
-/

namespace DeviceTrace

/-- The number of the inner team's master in this team, if the worker holds that slot. -/
def Team.masterSlot? (team inner : Team) (id : WorkerId) : Option Nat :=
  if team.hasMember inner.masterNumber id then some inner.masterNumber else none

/-- A step outward to a task of another team. -/
structure TeamChange where
  /-- The team that the walk was in before the step. -/
  left : TeamId
  /-- The step went to the parent of a task, and not to the task that scheduled it. -/
  toParent : Bool
  deriving DecidableEq, Repr

namespace Hierarchy

/-- The change of team in the step outward from a level, none if the step stays in the team. -/
def teamChange? (h : Hierarchy) (w : Worker) (depth : Nat) : Option TeamChange := do
  let p ← h.taskAt? w true depth
  let q ← h.taskAt? w true (depth + 1)
  if p.task.team = q.task.team then none
  else some ⟨p.task.team, p.task.schedulingParent.isNone⟩

/-- The changes of team on the way outward to a level, the last one at the end. -/
def teamChanges (h : Hierarchy) (w : Worker) (depth : Nat) : List TeamChange :=
  (List.range depth).filterMap (h.teamChange? w)

/-- The last change of team on the way to a level that was a step to a parent. -/
def lastToParent? (h : Hierarchy) (w : Worker) (depth : Nat) : Option TeamChange :=
  ((h.teamChanges w depth).filter TeamChange.toParent).getLast?

variable {h : Hierarchy} {w : Worker} {scheduling : Bool} {p q : TaskPosition} {depth : Nat}

/-! ## The last step of a walk -/

theorem taskWalk?_succ (depth : Nat) (p : TaskPosition) :
    h.taskWalk? w scheduling (depth + 1) p =
      (h.taskWalk? w scheduling depth p).bind (h.outward? w scheduling) := by
  induction depth generalizing p with
  | zero => cases hstep : h.outward? w scheduling p <;> simp [taskWalk?, hstep]
  | succ depth ih =>
    rw [taskWalk?]
    cases hstep : h.outward? w scheduling p with
    | none => simp [taskWalk?, hstep]
    | some q =>
      rw [Option.bind_some, ih, taskWalk?, hstep]
      rfl

theorem taskAt?_succ (depth : Nat) :
    h.taskAt? w scheduling (depth + 1) =
      (h.taskAt? w scheduling depth).bind (h.outward? w scheduling) := by
  unfold taskAt?
  cases h.innermostTask? w with
  | none => rfl
  | some p => exact taskWalk?_succ depth p

/-! ## The team that was left -/

/-- Only a step to a parent in another team takes note of the team that it leaves. -/
theorem left_of_outward? (hstep : h.outward? w true p = some q) :
    q.left = if p.task.team ≠ q.task.team ∧ p.task.schedulingParent = none then some p.task.team
      else p.left := by
  cases hpending : p.pending with
  | cons region rest =>
    rw [outward?_pending hpending] at hstep
    cases hstep
    simp
  | nil =>
    unfold outward? at hstep
    rw [hpending] at hstep
    cases hscheduler : p.task.schedulingParent with
    | some scheduler =>
      simp only [hscheduler, if_true] at hstep
      obtain ⟨task, -, hq⟩ := Option.bind_eq_some_iff.mp hstep
      cases hq
      simp
    | none =>
      simp only [hscheduler, if_true] at hstep
      obtain ⟨parent, -, hstep⟩ := Option.bind_eq_some_iff.mp hstep
      obtain ⟨task, -, hq⟩ := Option.bind_eq_some_iff.mp hstep
      cases hq
      by_cases hsame : task.team = p.task.team
      · simp [hsame]
      · simp [hsame, Ne.symm hsame]

theorem teamChange?_of_step (hp : h.taskAt? w true depth = some p)
    (hstep : h.outward? w true p = some q) :
    h.teamChange? w depth =
      if p.task.team = q.task.team then none
      else some ⟨p.task.team, p.task.schedulingParent.isNone⟩ := by
  have hq : h.taskAt? w true (depth + 1) = some q := by
    rw [taskAt?_succ, hp, Option.bind_some, hstep]
  simp [teamChange?, hp, hq]

theorem lastToParent?_succ (depth : Nat) :
    h.lastToParent? w (depth + 1) =
      ((h.teamChange? w depth).filter TeamChange.toParent).or (h.lastToParent? w depth) := by
  unfold lastToParent? teamChanges
  rw [List.range_succ, List.filterMap_append, List.filter_append, List.getLast?_append]
  cases hchange : h.teamChange? w depth with
  | none => simp [hchange]
  | some change => cases hto : change.toParent <;> simp [hchange, hto, Option.filter]

/-- What a walk has noted is the team that its last change by a step to a parent has left. -/
theorem left_of_taskAt? (hp : h.taskAt? w true depth = some p) :
    p.left = (h.lastToParent? w depth).map TeamChange.left := by
  induction depth generalizing p with
  | zero =>
    obtain ⟨start, hstart, hzero⟩ := Option.bind_eq_some_iff.mp hp
    obtain ⟨current, -, hrest⟩ := Option.bind_eq_some_iff.mp hstart
    obtain ⟨task, -, hinnermost⟩ := Option.bind_eq_some_iff.mp hrest
    cases hzero
    cases hinnermost
    rfl
  | succ depth ih =>
    have hsteps := hp
    rw [taskAt?_succ] at hsteps
    obtain ⟨before, hbefore, hstep⟩ := Option.bind_eq_some_iff.mp hsteps
    rw [left_of_outward? hstep, lastToParent?_succ, teamChange?_of_step hbefore hstep, ih hbefore]
    by_cases hsame : before.task.team = p.task.team
    · simp [hsame]
    · cases hscheduler : before.task.schedulingParent <;> simp [hsame, Option.filter]

theorem Sound.team?_of_mem_teamChanges (hh : h.Sound) {change : TeamChange}
    (hchange : change ∈ h.teamChanges w depth) : ∃ team, h.team? change.left = some team := by
  obtain ⟨k, -, hk⟩ := List.mem_filterMap.mp hchange
  obtain ⟨p, hp, hrest⟩ := Option.bind_eq_some_iff.mp hk
  obtain ⟨q, -, hif⟩ := Option.bind_eq_some_iff.mp hrest
  split at hif
  · cases hif
  · cases hif
    exact Option.isSome_iff_exists.mp (hh.team (hh.reachable hp).task)

/-! ## Numbers of task levels -/

section
variable {id : WorkerId} {team : Team}

theorem Sound.taskLevel?_of_taskAt? (hh : h.Sound) (hw : h.worker? id = some w)
    (hp : h.taskAt? w true depth = some p) (hteam : h.team? p.task.team = some team) :
    ∃ level, h.taskLevel? id depth = some level ∧
      h.threadNumberAt? id w p team = some level.threadNumber := by
  obtain ⟨region, hpayloads, -⟩ := payloadsAt?_eq_some hteam
  obtain ⟨number, hnumber⟩ :=
    Option.isSome_iff_exists.mp ((hh.reachable hp).isSome_threadNumberAt? id team)
  refine ⟨⟨p.type, p.site.payload, region.parallelData, number⟩, ?_, hnumber⟩
  simp [taskLevel?, hw, hp, hpayloads, hteam, hnumber]

variable (htask : p.pending = []) (hparallel : team.serialized = 0)
include htask hparallel

theorem threadNumberAt?_of_left {left : TeamId} {inner : Team} (hleft : p.left = some left)
    (hinner : h.team? left = some inner) :
    h.threadNumberAt? id w p team = some (team.masterSlot? inner id) := by
  simp [threadNumberAt?, htask, hparallel, hleft, hinner, Team.masterSlot?]

theorem threadNumberAt?_of_left_none (hleft : p.left = none) :
    h.threadNumberAt? id w p team = some (h.ownNumber? id w.number team) := by
  simp [threadNumberAt?, htask, hparallel, hleft]

end

/-- In any hierarchy that edits have made, let the walk outward of a worker come to a task in a team
that runs in parallel, and have changed team on its way. If the last change was a step to a parent,
the worker is told to have the number that the master of the team left then has in the team reached,
if it holds that slot, and none otherwise. After a step to a scheduler it is told to have the number
that the last change before it by a step to a parent gives it, and its own number if there was no
such change. -/
theorem threadNumber_after_change (edits : List Edit) {id : WorkerId} {w : Worker} {depth : Nat}
    {p : TaskPosition} {team : Team} {change : TeamChange}
    (hw : (ofEdits edits).worker? id = some w)
    (hp : (ofEdits edits).taskAt? w true depth = some p) (htask : p.pending = [])
    (hteam : (ofEdits edits).team? p.task.team = some team) (hparallel : team.serialized = 0)
    (hchange : ((ofEdits edits).teamChanges w depth).getLast? = some change) :
    let h := ofEdits edits
    ∃ level left, h.taskLevel? id depth = some level ∧ h.team? change.left = some left ∧
      (change.toParent = true → level.threadNumber = team.masterSlot? left id) ∧
      (change.toParent = false →
        match h.lastToParent? w depth with
        | some earlier => ∃ inner, h.team? earlier.left = some inner ∧
            level.threadNumber = team.masterSlot? inner id
        | none => level.threadNumber = h.ownNumber? id w.number team) := by
  intro h
  have hh : h.Sound := sound_ofEdits edits
  have hnoted : p.left = (h.lastToParent? w depth).map TeamChange.left := left_of_taskAt? hp
  obtain ⟨level, hlevel, hnumber⟩ := hh.taskLevel?_of_taskAt? hw hp hteam
  obtain ⟨left, hleft⟩ := hh.team?_of_mem_teamChanges (List.mem_of_getLast? hchange)
  refine ⟨level, left, hlevel, hleft, fun hto => ?parent, fun _ => ?scheduler⟩
  case parent =>
    have hlast : h.lastToParent? w depth = some change := by
      obtain ⟨front, hfront⟩ := List.getLast?_eq_some_iff.mp hchange
      have hchanges : h.teamChanges w depth = front ++ [change] := hfront
      simp [lastToParent?, hchanges, hto]
    rw [hlast] at hnoted
    exact Option.some.inj
      (hnumber.symm.trans (threadNumberAt?_of_left htask hparallel hnoted hleft))
  case scheduler =>
    cases hlast : h.lastToParent? w depth with
    | none =>
      rw [hlast] at hnoted
      exact Option.some.inj
        (hnumber.symm.trans (threadNumberAt?_of_left_none htask hparallel hnoted))
    | some earlier =>
      rw [hlast] at hnoted
      have hmem : earlier ∈ h.teamChanges w depth :=
        (List.mem_filter.mp (List.mem_of_getLast? hlast)).1
      obtain ⟨inner, hinner⟩ := hh.team?_of_mem_teamChanges hmem
      have htold : h.threadNumberAt? id w p team = some (team.masterSlot? inner id) :=
        threadNumberAt?_of_left htask hparallel hnoted hinner
      exact ⟨inner, hinner, Option.some.inj (hnumber.symm.trans htold)⟩

/-- A worker runs a task of an inner team that was scheduled by a task of the outer one, where it
holds the slot of the inner team's master. It is told to have no number there. -/
theorem scheduler_step_hides_master :
    let task (team : Nat) (scheduler : Option TaskId) : Task :=
      { team := ⟨team⟩, type := { kind := .implicit }, parent := none
        schedulingParent := scheduler, payload := {} }
    let h := ofEdits [.addWorker, .addTeam none 4 0 0 {}, .addTeam (some ⟨0⟩) 4 2 0 {},
      .setSlot ⟨0⟩ 2 (some ⟨0⟩), .setSlot ⟨1⟩ 3 (some ⟨0⟩), .addTask (task 0 none),
      .addTask (task 1 (some ⟨0⟩)), .assign ⟨0⟩ ⟨1⟩ 3]
    let w : Worker := { number := 3, current := some ⟨1⟩ }
    let outer : Team := { parent := none, masterNumber := 0, serialized := 0
                          slots := [none, none, some ⟨0⟩, none], payload := {} }
    let inner : Team := { parent := some ⟨0⟩, masterNumber := 2, serialized := 0
                          slots := [none, none, none, some ⟨0⟩], payload := {} }
    h.worker? ⟨0⟩ = some w ∧ h.team? ⟨0⟩ = some outer ∧ h.team? ⟨1⟩ = some inner ∧
      h.taskAt? w true 1 = some { id := ⟨0⟩, task := task 0 none, pending := [] } ∧
      h.teamChanges w 1 = [⟨⟨1⟩, false⟩] ∧ outer.masterSlot? inner ⟨0⟩ = some 2 ∧
      (h.taskLevel? ⟨0⟩ 1).map TaskLevel.threadNumber = some none := by
  decide +kernel

/-- Here the inner team was left by a step to a parent: the worker has entered a serial region in it
and runs a task that was scheduled in that region. -/
theorem threadNumber_after_change_past_region :
    let task (team : Nat) (parent scheduler : Option TaskId) : Task :=
      { team := ⟨team⟩, type := { kind := .implicit }, parent, schedulingParent := scheduler
        payload := {} }
    let edits : List Edit := [.addWorker, .addTeam none 4 0 0 {}, .addTeam (some ⟨0⟩) 4 2 0 {},
      .setSlot ⟨0⟩ 2 (some ⟨0⟩), .setSlot ⟨1⟩ 3 (some ⟨0⟩), .addTask (task 0 none none),
      .addTask (task 1 (some ⟨0⟩) none), .addTask (task 1 (some ⟨1⟩) (some ⟨1⟩)),
      .assign ⟨0⟩ ⟨1⟩ 3, .enterSerial ⟨0⟩ 7 0, .assign ⟨0⟩ ⟨2⟩ 3]
    let w : Worker := { number := 3, current := some ⟨2⟩, regions :=
      [{ team := ⟨1⟩, anchor := ⟨1⟩, teamPayload := { parallelData := 7 } }] }
    let p : TaskPosition :=
      { id := ⟨0⟩, task := task 0 none none, pending := [], left := some ⟨1⟩ }
    let team : Team := { parent := none, masterNumber := 0, serialized := 0
                         slots := [none, none, some ⟨0⟩, none], payload := {} }
    (ofEdits edits).worker? ⟨0⟩ = some w ∧ (ofEdits edits).taskAt? w true 3 = some p ∧
      (ofEdits edits).team? p.task.team = some team ∧ team.serialized = 0 ∧
      (ofEdits edits).teamChanges w 3 = [⟨⟨1⟩, true⟩] ∧
      ∃ level, (ofEdits edits).taskLevel? ⟨0⟩ 3 = some level ∧ level.threadNumber = some 2 := by
  intro task edits w p team
  have hw : (ofEdits edits).worker? ⟨0⟩ = some w := by decide +kernel
  have hp : (ofEdits edits).taskAt? w true 3 = some p := by decide +kernel
  have hteam : (ofEdits edits).team? p.task.team = some team := by decide +kernel
  have hchanges : (ofEdits edits).teamChanges w 3 = [⟨⟨1⟩, true⟩] := by decide +kernel
  have hlast : ((ofEdits edits).teamChanges w 3).getLast? = some ⟨⟨1⟩, true⟩ := by
    rw [hchanges]
    rfl
  have hinner : ((ofEdits edits).team? ⟨1⟩).map Team.masterNumber = some 2 := by decide +kernel
  obtain ⟨level, left, hlevel, hleft, hnumber, -⟩ :=
    threadNumber_after_change edits hw hp rfl hteam rfl hlast
  rw [hleft] at hinner
  refine ⟨hw, hp, hteam, rfl, hchanges, level, hlevel, ?_⟩
  rw [hnumber rfl, Team.masterSlot?, Option.some.inj hinner]
  decide

end Hierarchy
end DeviceTrace
