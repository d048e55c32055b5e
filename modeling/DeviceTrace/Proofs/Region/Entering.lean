import DeviceTrace.Proofs.Region.Levels

/-!
# Entering one more region

A serial region that a worker enters lies in front of all levels that were there before, for every
query by depth, and it hides none of them: each is told of one level further outward, with the same
thread number. A walk never comes back to the task or the team that it set out from, so the new
region is met once. No other worker notices.
-/

namespace DeviceTrace

/-- What the queries tell of a worker at some depth. -/
structure Outlook where
  task : Option TaskLevel
  lexical : Option TaskPayload
  scheduling : Option TaskPayload
  region : Option RegionLevel
  deriving DecidableEq, Repr

def Hierarchy.outlook (h : Hierarchy) (id : WorkerId) (depth : Nat) : Outlook :=
  ⟨h.taskLevel? id depth, h.lexicalTask? id depth, h.schedulingTask? id depth,
    h.regionLevel? id depth⟩

namespace Worker

variable {w : Worker} {region : SerialRegion}

/-- The worker when it is in one more region. -/
def entering (w : Worker) (region : SerialRegion) : Worker :=
  { w with regions := region :: w.regions }

@[simp] theorem current_entering : (w.entering region).current = w.current := rfl

theorem anchoredOn_entering (id : TaskId) :
    (w.entering region).anchoredOn id =
      if region.anchor = id then region :: w.anchoredOn id else w.anchoredOn id := by
  simp [anchoredOn, entering, List.filter_cons]

theorem enteredIn_entering (id : TeamId) :
    (w.entering region).enteredIn id =
      if region.team = id then region :: w.enteredIn id else w.enteredIn id := by
  simp [enteredIn, entering, List.filter_cons]

end Worker

namespace Hierarchy

variable {h : Hierarchy} {id : WorkerId} {w w' : Worker}

/-! ## Updates of a worker -/

theorem worker?_updateWorker_self (hw : h.worker? id = some w) (new : Worker) :
    (h.updateWorker id new).worker? id = some new := by
  rw [worker?_updateWorker hw, if_pos rfl]

theorem worker?_updateWorker_of_ne (hw : h.worker? id = some w) (new : Worker) {other : WorkerId}
    (hother : other ≠ id) : (h.updateWorker id new).worker? other = h.worker? other := by
  rw [worker?_updateWorker hw, if_neg hother.symm]

theorem updateWorker_updateWorker (a b : Worker) :
    (h.updateWorker id a).updateWorker id b = h.updateWorker id b := by
  simp [updateWorker]

theorem updateWorker_self (hw : h.worker? id = some w) : h.updateWorker id w = h := by
  obtain ⟨hlt, hget⟩ := List.getElem?_eq_some_iff.mp hw
  simp [updateWorker, ← hget]

/-- A walk asks for teams and tasks only; it sees the regions of the worker that it is given. -/
theorem taskWalk?_updateWorker (new : Worker) (scheduling : Bool) (depth : Nat)
    (p : TaskPosition) :
    (h.updateWorker id new).taskWalk? w scheduling depth p = h.taskWalk? w scheduling depth p := by
  induction depth generalizing p with
  | zero => rfl
  | succ depth ih =>
    rw [taskWalk?, taskWalk?, funext ih]
    rfl

theorem regionWalk?_updateWorker (new : Worker) (depth : Nat) (p : RegionPosition) :
    (h.updateWorker id new).regionWalk? w depth p = h.regionWalk? w depth p := by
  induction depth generalizing p with
  | zero => rfl
  | succ depth ih =>
    rw [regionWalk?, regionWalk?, funext ih]
    rfl

theorem taskAt?_updateWorker (new : Worker) (scheduling : Bool) (depth : Nat) :
    (h.updateWorker id new).taskAt? w scheduling depth = h.taskAt? w scheduling depth := by
  rw [taskAt?, taskAt?, funext (taskWalk?_updateWorker new scheduling depth)]
  rfl

theorem regionAt?_updateWorker (new : Worker) (depth : Nat) :
    ((h.updateWorker id new).innermostRegion? w).bind
        ((h.updateWorker id new).regionWalk? w depth) =
      (h.innermostRegion? w).bind (h.regionWalk? w depth) := by
  rw [funext (regionWalk?_updateWorker new depth)]
  rfl

/-- What is told of a worker is what its walks come to, in its teams and under its number. -/
theorem outlook_congr {h' : Hierarchy} {depth depth' : Nat} (hw : h.worker? id = some w)
    (hw' : h'.worker? id = some w') (hteams : h'.teams = h.teams) (hnumber : w'.number = w.number)
    (htasks : ∀ scheduling, h'.taskAt? w' scheduling depth' = h.taskAt? w scheduling depth)
    (hregions : (h'.innermostRegion? w').bind (h'.regionWalk? w' depth') =
      (h.innermostRegion? w).bind (h.regionWalk? w depth)) :
    h'.outlook id depth' = h.outlook id depth := by
  have hteam : h'.team? = h.team? := by
    unfold team?
    rw [hteams]
  have hpayloads : h'.payloadsAt? = h.payloadsAt? := by
    unfold payloadsAt?
    rw [hteam]
  have hthread (p : TaskPosition) (team : Team) :
      h'.threadNumberAt? id w' p team = h.threadNumberAt? id w p team := by
    simp only [threadNumberAt?, ownNumber?, hteam, hnumber]
  simp only [outlook, taskLevel?, lexicalTask?, schedulingTask?, taskPayloadAt?, regionLevel?, hw,
    hw', Option.bind_eq_bind, Option.bind_some, htasks, hregions, hpayloads, hteam, hthread]

theorem outlook_updateWorker_of_ne (hw : h.worker? id = some w) (new : Worker) {other : WorkerId}
    (hother : other ≠ id) (depth : Nat) :
    (h.updateWorker id new).outlook other depth = h.outlook other depth := by
  have hsame := worker?_updateWorker_of_ne hw new hother
  cases hv : h.worker? other with
  | none =>
    simp [outlook, taskLevel?, lexicalTask?, schedulingTask?, taskPayloadAt?, regionLevel?, hsame,
      hv]
  | some v =>
    refine outlook_congr hv (hsame.trans hv) rfl rfl (fun scheduling => ?_) ?_
    · exact taskAt?_updateWorker new scheduling depth
    · exact regionAt?_updateWorker new depth

/-! ## Walks that see the same regions -/

section
variable {scheduling : Bool} {p : TaskPosition}

/-- Only the regions of the next task matter to a step. -/
theorem outward?_congr
    (hsame : ∀ outer ∈ p.task.outer? scheduling, w'.anchoredOn outer = w.anchoredOn outer) :
    h.outward? w' scheduling p = h.outward? w scheduling p := by
  unfold outward?
  cases p.pending with
  | cons region rest => rfl
  | nil =>
    cases scheduling with
    | false =>
      cases hparent : p.task.parent with
      | none => simp
      | some outer => simp [hsame outer hparent]
    | true =>
      cases hscheduler : p.task.schedulingParent with
      | some outer =>
        have := hsame outer (by simp [Task.outer?, hscheduler])
        simp [this]
      | none =>
        cases hparent : p.task.parent with
        | none => simp
        | some outer =>
          have := hsame outer (by simp [Task.outer?, hscheduler, hparent])
          simp [this]

/-- Walks go to tasks that were added earlier, so only the regions of these matter. -/
theorem taskWalk?_congr (hh : h.Sound) {current : TaskId}
    (hsame : ∀ outer, outer.index < current.index → w'.anchoredOn outer = w.anchoredOn outer)
    (hp : h.task? p.id = some p.task) (hle : p.id.index ≤ current.index) (depth : Nat) :
    h.taskWalk? w' scheduling depth p = h.taskWalk? w scheduling depth p := by
  induction depth generalizing p with
  | zero => rfl
  | succ depth ih =>
    have hstep : h.outward? w' scheduling p = h.outward? w scheduling p := by
      refine outward?_congr fun outer houter => hsame outer ?_
      have hlt := hh.outer_lt hp houter
      omega
    rw [taskWalk?, taskWalk?, hstep]
    cases hpending : p.pending with
    | cons region rest =>
      rw [outward?_pending hpending]
      exact ih (p := { p with pending := rest }) hp hle
    | nil =>
      cases houter : p.task.outer? scheduling with
      | none =>
        rw [outward?_last hpending houter]
        rfl
      | some outer =>
        have hlt : outer.index < p.id.index := hh.outer_lt hp houter
        obtain ⟨task, htask⟩ := Option.isSome_iff_exists.mp
          ((hh.ownedBefore_tasks scheduling).isSome_owner hp houter)
        obtain ⟨left, hnext⟩ := outward?_next (w := w) hpending houter htask
        rw [hnext]
        exact ih (p := ⟨outer, task, w.anchoredOn outer, left⟩) htask
          (Nat.le_trans (Nat.le_of_lt hlt) hle)

end

/-- Walks go to teams that were added earlier, so only the regions in these matter. -/
theorem regionWalk?_congr (hh : h.Sound) {team : TeamId}
    (hsame : ∀ outer, outer.index < team.index → w'.enteredIn outer = w.enteredIn outer)
    {p : RegionPosition} {reached : TeamId} (hp : h.team? reached = some p.team)
    (hle : reached.index ≤ team.index) (depth : Nat) :
    h.regionWalk? w' depth p = h.regionWalk? w depth p := by
  induction depth generalizing p reached with
  | zero => rfl
  | succ depth ih =>
    rw [regionWalk?, regionWalk?]
    unfold regionOutward?
    cases p.pending with
    | cons region rest => exact ih hp hle
    | nil =>
      cases hparent : p.team.parent with
      | none => rfl
      | some outer =>
        have hlt := hh.parent_lt hp outer hparent
        have hregions := hsame outer (by omega)
        cases houter : h.team? outer with
        | none => simp [regionOfTeam?, houter]
        | some next =>
          simp only [Option.bind_some, regionOfTeam?, houter, Option.map_some, hregions]
          exact ih (p := ⟨next, w.enteredIn outer⟩) houter (by omega)

/-! ## The new region in front -/

section
variable {current : TaskId} {task : Task} {region : SerialRegion}

theorem enterSerial_eq (hw : h.worker? id = some w) (hcurrent : w.current = some current)
    (htask : h.task? current = some task) (parallelData returnAddress : UInt64) :
    h.enterSerial id parallelData returnAddress =
      (some ⟨id, w.regions.length⟩, h.updateWorker id (w.entering {
        team := task.team, anchor := current
        teamPayload := { parallelData, returnAddress } })) := by
  simp [enterSerial, hw, hcurrent, htask, Worker.entering]

theorem leaveSerial_eq {rest : List SerialRegion} (hw : h.worker? id = some w)
    (hregions : w.regions = region :: rest) :
    h.leaveSerial id =
      (some region.teamPayload.parallelData, h.updateWorker id { w with regions := rest }) := by
  simp [leaveSerial, hw, hregions]

theorem leaveSerial_entering (hw : h.worker? id = some w) (region : SerialRegion) :
    (h.updateWorker id (w.entering region)).leaveSerial id =
      (some region.teamPayload.parallelData, h) := by
  rw [leaveSerial_eq (worker?_updateWorker_self hw (w.entering region)) rfl,
    updateWorker_updateWorker]
  exact congrArg _ (updateWorker_self hw)

section
variable (hcurrent : w.current = some current) (htask : h.task? current = some task)
include hcurrent htask

theorem innermostTask?_entering (hanchor : region.anchor = current) :
    h.innermostTask? (w.entering region) =
      some ⟨current, task, region :: w.anchoredOn current, none⟩ := by
  simp [innermostTask?, hcurrent, htask, Worker.anchoredOn_entering, hanchor]

theorem innermostRegion?_entering {team : Team} (hteam : h.team? task.team = some team)
    (hregion : region.team = task.team) :
    h.innermostRegion? (w.entering region) = some ⟨team, region :: w.enteredIn task.team⟩ := by
  simp [innermostRegion?, regionOfTeam?, hcurrent, htask, hteam, Worker.enteredIn_entering,
    hregion]

theorem taskAt?_entering (hh : h.Sound) (hanchor : region.anchor = current) (scheduling : Bool)
    (depth : Nat) :
    h.taskAt? (w.entering region) scheduling (depth + 1) = h.taskAt? w scheduling depth := by
  have hstart : h.innermostTask? w = some ⟨current, task, w.anchoredOn current, none⟩ := by
    simp [innermostTask?, hcurrent, htask]
  have hsame (outer : TaskId) (hlt : outer.index < current.index) :
      (w.entering region).anchoredOn outer = w.anchoredOn outer := by
    rw [Worker.anchoredOn_entering, if_neg]
    rintro rfl
    rw [hanchor] at hlt
    exact Nat.lt_irrefl _ hlt
  rw [taskAt?, innermostTask?_entering hcurrent htask hanchor, taskAt?, hstart, Option.bind_some,
    Option.bind_some, taskWalk?, outward?_pending rfl, Option.bind_some]
  exact taskWalk?_congr hh hsame htask (Nat.le_refl _) depth

theorem regionAt?_entering (hh : h.Sound) (hregion : region.team = task.team) (depth : Nat) :
    (h.innermostRegion? (w.entering region)).bind (h.regionWalk? (w.entering region) (depth + 1)) =
      (h.innermostRegion? w).bind (h.regionWalk? w depth) := by
  obtain ⟨team, hteam⟩ := Option.isSome_iff_exists.mp (hh.team htask)
  have hstart : h.innermostRegion? w = some ⟨team, w.enteredIn task.team⟩ := by
    simp [innermostRegion?, regionOfTeam?, hcurrent, htask, hteam]
  have hsame (outer : TeamId) (hlt : outer.index < task.team.index) :
      (w.entering region).enteredIn outer = w.enteredIn outer := by
    rw [Worker.enteredIn_entering, if_neg]
    rintro rfl
    rw [hregion] at hlt
    exact Nat.lt_irrefl _ hlt
  rw [innermostRegion?_entering hcurrent htask hteam hregion, hstart, Option.bind_some,
    Option.bind_some, regionWalk?, regionOutward?, Option.bind_some]
  exact regionWalk?_congr hh hsame hteam (Nat.le_refl _) depth

end

/-- What was told of a level is told of it one level further outward. -/
theorem outlook_entering (hh : h.Sound) (hw : h.worker? id = some w)
    (hcurrent : w.current = some current) (htask : h.task? current = some task)
    (hanchor : region.anchor = current) (hregion : region.team = task.team) (depth : Nat) :
    (h.updateWorker id (w.entering region)).outlook id (depth + 1) = h.outlook id depth := by
  have hentered := worker?_updateWorker_self hw (w.entering region)
  refine outlook_congr hw hentered rfl rfl (fun scheduling => ?_) ?_
  · rw [taskAt?_updateWorker]
    exact taskAt?_entering hcurrent htask hh hanchor scheduling depth
  · rw [regionAt?_updateWorker]
    exact regionAt?_entering hcurrent htask hh hregion depth

/-- The new region is in front of all queries. -/
theorem outlook_entering_zero (hh : h.Sound) (hw : h.worker? id = some w)
    (hcurrent : w.current = some current) (htask : h.task? current = some task)
    (hanchor : region.anchor = current) (hregion : region.team = task.team) :
    (h.updateWorker id (w.entering region)).outlook id 0 =
      { task := some {
          type := { kind := .implicit }
          task := region.taskPayload
          parallelData := region.teamPayload.parallelData
          threadNumber := some 0 }
        lexical := some region.taskPayload
        scheduling := some region.taskPayload
        region := some ⟨region.teamPayload.parallelData, 1⟩ } := by
  have hentered := worker?_updateWorker_self hw (w.entering region)
  obtain ⟨team, hteam⟩ := Option.isSome_iff_exists.mp (hh.team htask)
  -- walks of depth zero end where they start, and the start is found by lookups alone
  have hfirst : (h.updateWorker id (w.entering region)).innermostTask? (w.entering region) =
      some ⟨current, task, region :: w.anchoredOn current, none⟩ :=
    innermostTask?_entering hcurrent htask hanchor
  have hstart : (h.updateWorker id (w.entering region)).innermostRegion? (w.entering region) =
      some ⟨team, region :: w.enteredIn task.team⟩ :=
    innermostRegion?_entering hcurrent htask hteam hregion
  simp [outlook, taskLevel?, lexicalTask?, schedulingTask?, taskPayloadAt?, regionLevel?, hentered,
    taskAt?, taskWalk?, hfirst, hstart, payloadsAt?, hteam, threadNumberAt?, TaskPosition.type,
    regionWalk?, RegionPosition.level]

end

/-- In any hierarchy that edits have made, let a worker run a task and enter a serial region. At
their first level all queries then tell of an empty implicit task in a region of one worker, and
further outward of all levels that were there before, one after the other and with nothing else
changed. No query of another worker is answered in another way. Leaving the region gives its data
and the hierarchy as it was. -/
theorem enterSerial_shifts_levels (edits : List Edit) {id : WorkerId} {w : Worker}
    {current : TaskId} (hw : (ofEdits edits).worker? id = some w)
    (hcurrent : w.current = some current) (parallelData returnAddress : UInt64) :
    let h := ofEdits edits
    let entered := h.enterSerial id parallelData returnAddress
    entered.1 = some ⟨id, w.regions.length⟩ ∧
      entered.2.outlook id 0 =
        { task := some {
            type := { kind := .implicit, flags := 0 }
            task := {}
            parallelData
            threadNumber := some 0 }
          lexical := some {}
          scheduling := some {}
          region := some { parallelData, teamSize := 1 } } ∧
      (∀ depth, entered.2.outlook id (depth + 1) = h.outlook id depth) ∧
      (∀ other, other ≠ id →
        (∀ depth, entered.2.outlook other depth = h.outlook other depth) ∧
        entered.2.stateOf? other = h.stateOf? other ∧
        entered.2.currentPayload? other = h.currentPayload? other ∧
        ∀ depth, entered.2.serialTask? ⟨other, depth⟩ = h.serialTask? ⟨other, depth⟩) ∧
      entered.2.leaveSerial id = (some parallelData, h) := by
  intro h entered
  have hh : h.Sound := sound_ofEdits edits
  obtain ⟨task, htask⟩ := Option.isSome_iff_exists.mp ((hh.worker hw).current current hcurrent)
  let region : SerialRegion :=
    { team := task.team, anchor := current, teamPayload := { parallelData, returnAddress } }
  have hentered : entered = (some ⟨id, w.regions.length⟩, h.updateWorker id (w.entering region)) :=
    enterSerial_eq hw hcurrent htask parallelData returnAddress
  rw [hentered]
  refine ⟨rfl, ?first, fun depth => ?shifted, fun other hother => ?others, ?left⟩
  case first => exact outlook_entering_zero hh hw hcurrent htask rfl rfl
  case shifted => exact outlook_entering hh hw hcurrent htask rfl rfl depth
  case others =>
    have hsame : (h.updateWorker id (w.entering region)).worker? other = h.worker? other :=
      worker?_updateWorker_of_ne hw (w.entering region) hother
    refine ⟨fun depth => ?_, ?_, ?_, fun depth => ?_⟩
    · exact outlook_updateWorker_of_ne hw (w.entering region) hother depth
    · simp only [stateOf?, hsame]
    · simp only [currentPayload?, hsame, task?_updateWorker]
    · simp only [serialTask?, hsame]
  case left => exact leaveSerial_entering hw region

/-- A worker with regions of two tasks, in a team around another one, enters one more region. -/
theorem enterSerial_shifts_levels_of_two_teams :
    let task (team : Nat) (parent : Option TaskId) : Task :=
      { team := ⟨team⟩, type := { kind := .implicit }, parent, schedulingParent := none
        payload := {} }
    let edits : List Edit := [.addWorker, .addTeam none 1 0 0 { parallelData := 1 },
      .setSlot ⟨0⟩ 0 (some ⟨0⟩), .addTask (task 0 none),
      .addTeam (some ⟨0⟩) 4 0 0 { parallelData := 2 }, .setSlot ⟨1⟩ 3 (some ⟨0⟩),
      .addTask (task 1 (some ⟨0⟩)), .assign ⟨0⟩ ⟨0⟩ 0, .enterSerial ⟨0⟩ 7 0, .assign ⟨0⟩ ⟨1⟩ 3,
      .enterSerial ⟨0⟩ 8 0]
    let region (index : Nat) (parallelData : UInt64) : SerialRegion :=
      { team := ⟨index⟩, anchor := ⟨index⟩, teamPayload := { parallelData } }
    let w : Worker := { number := 3, current := some ⟨1⟩, regions := [region 1 8, region 0 7] }
    let entered := (ofEdits edits).enterSerial ⟨0⟩ 9 0
    (ofEdits edits).worker? ⟨0⟩ = some w ∧ w.current = some ⟨1⟩ ∧
      (List.range 5).map (fun depth => (entered.2.outlook ⟨0⟩ (depth + 1)).task.map fun level =>
        (level.parallelData, level.threadNumber)) =
          [some (8, some 0), some (2, some 3), some (7, some 0), some (1, some 0), none] := by
  intro task edits region w entered
  have hw : (ofEdits edits).worker? ⟨0⟩ = some w := by decide +kernel
  obtain ⟨-, -, hshifted, -⟩ := enterSerial_shifts_levels edits hw rfl 9 0
  refine ⟨hw, rfl, ?_⟩
  simp only [entered, hshifted]
  decide +kernel

end Hierarchy
end DeviceTrace
