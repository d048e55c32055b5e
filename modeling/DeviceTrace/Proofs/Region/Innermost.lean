import DeviceTrace.Proofs.Region.Levels

/-!
# What a worker is in, for writers and for readers

Writes go to the latest serial region of a worker if it was entered from the current task, and else
to the task and its team. Queries of tasks look at all regions that were entered from the current
task, and queries of parallel regions at all that were entered in its team. They speak of the same
level unless a region that is looked at lies under one that was entered from another task.
-/

namespace DeviceTrace

/-- The first level outward from a task. -/
def Worker.frontSite (w : Worker) (current : TaskId) (task : Task) : TaskSite :=
  match w.anchoredOn current with
  | region :: _ => .serial region
  | [] => .task task

/-- Nothing hides these regions of the worker from writes: it is in its latest region, or there are
no such regions. -/
def Worker.Uncovered (w : Worker) (regions : List SerialRegion) : Prop :=
  w.innermost?.isSome ∨ regions = []

instance (w : Worker) (regions : List SerialRegion) : Decidable (w.Uncovered regions) :=
  inferInstanceAs (Decidable (_ ∨ _))

/-- All queries tell of this payload for the task that a worker is in. -/
structure Hierarchy.Reports (h : Hierarchy) (id : WorkerId) (payload : TaskPayload) : Prop where
  level : (h.taskLevel? id 0).map TaskLevel.task = some payload
  lexical : h.lexicalTask? id 0 = some payload
  scheduling : h.schedulingTask? id 0 = some payload

namespace Worker

variable {w : Worker} {current : TaskId}

theorem anchoredOn_front {front : SerialRegion} {rest : List SerialRegion}
    (hregions : w.regions = front :: rest) (hanchor : front.anchor = current) :
    w.anchoredOn current = front :: rest.filter (·.anchor = current) := by
  simp [anchoredOn, hregions, hanchor]

theorem enteredIn_front {front : SerialRegion} {rest : List SerialRegion} {team : TeamId}
    (hregions : w.regions = front :: rest) (hteam : front.team = team) :
    w.enteredIn team = front :: rest.filter (·.team = team) := by
  simp [enteredIn, hregions, hteam]

/-- Writers find a worker in its latest region, which is then the first one of its task, or in its
task. -/
theorem innermost?_cases (hcurrent : w.current = some current) :
    (∃ region rest, w.innermost? = some (region, rest) ∧ region.anchor = current ∧
      w.anchoredOn current = region :: rest.filter (·.anchor = current)) ∨
      w.innermost? = none := by
  cases hinnermost : w.innermost? with
  | none => exact .inr rfl
  | some top =>
    obtain ⟨region, rest⟩ := top
    obtain ⟨hregions, hanchor⟩ := innermost?_eq_some_iff.mp hinnermost
    cases hcurrent.symm.trans hanchor
    exact .inl ⟨region, rest, rfl, rfl, anchoredOn_front hregions rfl⟩

theorem uncovered_of_innermost? {top : SerialRegion × List SerialRegion}
    (hinnermost : w.innermost? = some top) (regions : List SerialRegion) : w.Uncovered regions :=
  .inl (by rw [hinnermost]; rfl)

theorem uncovered_iff_nil (hinnermost : w.innermost? = none) (regions : List SerialRegion) :
    w.Uncovered regions ↔ regions = [] := by
  simp [Uncovered, hinnermost]

theorem getElem?_sites_zero (w : Worker) (id : TaskId) (task : Task)
    (rest : List (TaskId × Task)) :
    (w.sites ((id, task) :: rest))[0]? = some (w.frontSite id task) := by
  unfold frontSite sites
  cases hregions : w.anchoredOn id <;> simp [hregions]

end Worker

namespace Hierarchy

variable {h : Hierarchy} {id : WorkerId} {w : Worker} {current : TaskId} {task : Task}

/-! ## The first level of each query -/

section
variable (hh : h.Sound) (hw : h.worker? id = some w) (hcurrent : w.current = some current)
  (htask : h.task? current = some task)
include hh hw hcurrent htask

theorem taskPayloadAt?_zero (scheduling : Bool) :
    h.taskPayloadAt? scheduling id 0 = some (w.frontSite current task).payload := by
  obtain ⟨chain, hchain⟩ :=
    (hh.ownedBefore_tasks scheduling).exists_chain current (by rw [htask]; rfl)
  obtain ⟨_, rest, rfl, hhead⟩ := hchain.exists_cons
  cases htask.symm.trans hhead
  rw [taskPayloadAt?_eq hh hw hcurrent hchain, Worker.getElem?_sites_zero]
  rfl

theorem taskLevel?_zero :
    (h.taskLevel? id 0).map (fun level => (level.task, some level.parallelData)) =
      some ((w.frontSite current task).payload,
        h.parallelDataOf? (w.frontSite current task)) := by
  obtain ⟨chain, hchain⟩ := (hh.ownedBefore_tasks true).exists_chain current (by rw [htask]; rfl)
  obtain ⟨_, rest, rfl, hhead⟩ := hchain.exists_cons
  cases htask.symm.trans hhead
  rw [taskLevel?_eq hh hw hcurrent hchain, Worker.getElem?_sites_zero]
  rfl

theorem Sound.reports : h.Reports id (w.frontSite current task).payload := by
  have hlevel := congrArg (Option.map Prod.fst) (taskLevel?_zero hh hw hcurrent htask)
  rw [Option.map_map] at hlevel
  exact ⟨hlevel, taskPayloadAt?_zero hh hw hcurrent htask false,
    taskPayloadAt?_zero hh hw hcurrent htask true⟩

theorem taskLevel?_zero_parallelData :
    (h.taskLevel? id 0).map TaskLevel.parallelData =
      h.parallelDataOf? (w.frontSite current task) := by
  obtain ⟨level, hlevel, htold⟩ :=
    Option.map_eq_some_iff.mp (taskLevel?_zero hh hw hcurrent htask)
  rw [hlevel]
  exact (Prod.mk.inj htold).2

end

/-! ## Writing the payload of the current task -/

/-- A write reaches the first level of the queries exactly if the regions of the task are not
covered. -/
theorem setCurrentPayload_front (hw : h.worker? id = some w) (hcurrent : w.current = some current)
    (htask : h.task? current = some task) (payload : TaskPayload) :
    (h.setCurrentPayload id payload).1 = true ∧
      ∃ w' task', (h.setCurrentPayload id payload).2.worker? id = some w' ∧
        w'.state = w.state ∧ w'.current = some current ∧
        (h.setCurrentPayload id payload).2.task? current = some task' ∧
        (w'.frontSite current task').payload =
          if w.Uncovered (w.anchoredOn current) then payload
          else (w.frontSite current task).payload := by
  rcases Worker.innermost?_cases hcurrent with
    ⟨region, rest, hinnermost, hanchor, -⟩ | hinnermost
  · let w' : Worker := { w with regions := { region with taskPayload := payload } :: rest }
    have hset : h.setCurrentPayload id payload = (true, h.updateWorker id w') := by
      simp [setCurrentPayload, hw, hinnermost, w']
    rw [hset, if_pos (w.uncovered_of_innermost? hinnermost _)]
    refine ⟨rfl, w', task, ?_, rfl, hcurrent, htask, ?_⟩
    · rw [worker?_updateWorker hw, if_pos rfl]
    · rw [Worker.frontSite, Worker.anchoredOn_front (w := w') rfl hanchor]
      rfl
  · have hset : h.setCurrentPayload id payload =
        (true, h.updateTask current { task with payload }) := by
      simp [setCurrentPayload, hw, hinnermost, hcurrent, htask]
    rw [hset]
    refine ⟨rfl, w, { task with payload }, hw, rfl, hcurrent, ?_, ?_⟩
    · rw [task?_updateTask htask, if_pos rfl]
    · unfold Worker.frontSite
      cases w.anchoredOn current with
      | nil => rw [if_pos ((Worker.uncovered_iff_nil hinnermost _).mpr rfl)]; rfl
      | cons region rest =>
        rw [if_neg fun h => List.cons_ne_nil _ _ ((Worker.uncovered_iff_nil hinnermost _).mp h)]

theorem currentPayload?_front (hw : h.worker? id = some w) (hcurrent : w.current = some current)
    (htask : h.task? current = some task) :
    ∃ payload, h.currentPayload? id = some payload ∧
      (w.Uncovered (w.anchoredOn current) → payload = (w.frontSite current task).payload) := by
  rcases Worker.innermost?_cases hcurrent with
    ⟨region, rest, hinnermost, -, hregions⟩ | hinnermost
  · refine ⟨region.taskPayload, by simp [currentPayload?, hw, hcurrent, hinnermost], fun _ => ?_⟩
    rw [Worker.frontSite, hregions]
    rfl
  · refine ⟨task.payload, by simp [currentPayload?, hw, hcurrent, hinnermost, htask], fun h => ?_⟩
    rw [Worker.frontSite, (Worker.uncovered_iff_nil hinnermost _).mp h]
    rfl

/-- Noting an entry changes the addresses in the payload as a write does. -/
theorem noteEntry_front (hw : h.worker? id = some w) (hcurrent : w.current = some current)
    (htask : h.task? current = some task) {payload : TaskPayload}
    (hpayload : h.currentPayload? id = some payload) (address : UInt64) (flags : UInt32) :
    (h.noteEntry id address flags).1 = some w.state ∧
      ∃ w' task', (h.noteEntry id address flags).2.worker? id = some w' ∧
        w'.current = some current ∧ (h.noteEntry id address flags).2.task? current = some task' ∧
        (w'.frontSite current task').payload =
          if w.Uncovered (w.anchoredOn current) then
            { payload with frame := { payload.frame with enter := address, enterFlags := flags } }
          else (w.frontSite current task).payload := by
  obtain ⟨-, w', task', hw', hstate, hcurrent', htask', hfront⟩ :=
    setCurrentPayload_front hw hcurrent htask
      { payload with frame := { payload.frame with enter := address, enterFlags := flags } }
  refine ⟨?_, { w' with state := .workParallel }, task', ?_, hcurrent', ?_, hfront⟩
  · simp only [noteEntry, hpayload, hw', hstate]
  · simp only [noteEntry, hpayload, hw']
    rw [worker?_updateWorker hw', if_pos rfl]
  · simp only [noteEntry, hpayload, hw']
    exact htask'

/-- In any hierarchy that edits have made, let a worker run a task. The payload of what it is in,
which a write replaces and which an entry is noted in, is the one that all queries tell of at their
first level, as long as the worker is in its latest region or has no region that was entered from
the task. Otherwise the queries tell of the latest region that was entered from the task, before and
after anything that is written. -/
theorem payload_reported (edits : List Edit) {id : WorkerId} {w : Worker} {current : TaskId}
    (hw : (ofEdits edits).worker? id = some w) (hcurrent : w.current = some current) :
    let h := ofEdits edits
    ∃ named reported, h.currentPayload? id = some named ∧ h.Reports id reported ∧
      (w.Uncovered (w.anchoredOn current) → named = reported) ∧
      (¬ w.Uncovered (w.anchoredOn current) →
        (w.anchoredOn current).head?.map SerialRegion.taskPayload = some reported) ∧
      (∀ written, (h.setCurrentPayload id written).1 = true ∧
        (h.setCurrentPayload id written).2.Reports id
          (if w.Uncovered (w.anchoredOn current) then written else reported)) ∧
      ∀ address flags, (h.noteEntry id address flags).1 = some w.state ∧
        (h.noteEntry id address flags).2.Reports id
          (if w.Uncovered (w.anchoredOn current) then
            { named with frame := { named.frame with enter := address, enterFlags := flags } }
          else reported) := by
  intro h
  have hh : h.Sound := sound_ofEdits edits
  obtain ⟨task, htask⟩ := Option.isSome_iff_exists.mp ((hh.worker hw).current current hcurrent)
  obtain ⟨named, hnamed, hsame⟩ := currentPayload?_front hw hcurrent htask
  refine ⟨named, (w.frontSite current task).payload, hnamed, hh.reports hw hcurrent htask, hsame,
    fun hcovered => ?covered, fun written => ?written, fun address flags => ?noted⟩
  case covered =>
    have hsome : w.anchoredOn current ≠ [] := fun hnil => hcovered (.inr hnil)
    obtain ⟨region, rest, hregions⟩ := List.exists_cons_of_ne_nil hsome
    rw [Worker.frontSite, hregions]
    rfl
  case written =>
    obtain ⟨hdone, w', task', hw', -, hcurrent', htask', hfront⟩ :=
      setCurrentPayload_front hw hcurrent htask written
    have hafter : (h.setCurrentPayload id written).2.Sound :=
      hh.edit (.setCurrentPayload id written)
    exact ⟨hdone, hfront ▸ hafter.reports hw' hcurrent' htask'⟩
  case noted =>
    obtain ⟨hdone, w', task', hw', hcurrent', htask', hfront⟩ :=
      noteEntry_front hw hcurrent htask hnamed address flags
    have hafter : (h.noteEntry id address flags).2.Sound := hh.edit (.noteEntry id address flags)
    exact ⟨hdone, hfront ▸ hafter.reports hw' hcurrent' htask'⟩

/-- A worker enters a region from each of two tasks and turns back to the first one. What is written
then is not what the queries tell of. -/
theorem covered_region_hides_payload :
    let task (data : UInt64) : Task :=
      { team := ⟨0⟩, type := { kind := .implicit }, parent := none, schedulingParent := none
        payload := { data } }
    let h := ofEdits [.addWorker, .addTeam none 1 0 0 {}, .addTask (task 1), .addTask (task 2),
      .assign ⟨0⟩ ⟨0⟩ 0, .enterSerial ⟨0⟩ 0 0, .assign ⟨0⟩ ⟨1⟩ 0, .enterSerial ⟨0⟩ 0 0,
      .assign ⟨0⟩ ⟨0⟩ 0]
    let written := h.setCurrentPayload ⟨0⟩ { data := 5 }
    h.currentPayload? ⟨0⟩ = some { data := 1 } ∧ h.lexicalTask? ⟨0⟩ 0 = some {} ∧
      written.1 = true ∧ (written.2.taskLevel? ⟨0⟩ 0).map TaskLevel.task = some {} ∧
      written.2.lexicalTask? ⟨0⟩ 0 = some {} ∧ written.2.schedulingTask? ⟨0⟩ 0 = some {} := by
  decide +kernel

/-- The worker of `covered_region_hides_payload` has left the region of the second task. -/
theorem payload_reported_after_leaving :
    let task (data : UInt64) : Task :=
      { team := ⟨0⟩, type := { kind := .implicit }, parent := none, schedulingParent := none
        payload := { data } }
    let edits : List Edit := [.addWorker, .addTeam none 1 0 0 {}, .addTask (task 1),
      .addTask (task 2), .assign ⟨0⟩ ⟨0⟩ 0, .enterSerial ⟨0⟩ 0 0, .assign ⟨0⟩ ⟨1⟩ 0,
      .enterSerial ⟨0⟩ 0 0, .assign ⟨0⟩ ⟨0⟩ 0, .leaveSerial ⟨0⟩]
    let w : Worker :=
      { current := some ⟨0⟩, regions := [{ team := ⟨0⟩, anchor := ⟨0⟩, teamPayload := {} }] }
    (ofEdits edits).worker? ⟨0⟩ = some w ∧ w.current = some ⟨0⟩ ∧
      ∀ written, ((ofEdits edits).setCurrentPayload ⟨0⟩ written).2.Reports ⟨0⟩ written := by
  intro task edits w
  have hw : (ofEdits edits).worker? ⟨0⟩ = some w := by decide +kernel
  have huncovered : w.Uncovered (w.anchoredOn ⟨0⟩) := by decide
  obtain ⟨named, reported, -, -, -, -, hwritten, -⟩ := payload_reported edits hw rfl
  refine ⟨hw, rfl, fun written => ?_⟩
  have hreports := (hwritten written).2
  rwa [if_pos huncovered] at hreports

/-! ## Writing the data of the innermost parallel region -/

theorem regionLevel?_zero {team : Team} (hw : h.worker? id = some w)
    (hcurrent : w.current = some current) (htask : h.task? current = some task)
    (hteam : h.team? task.team = some team) :
    h.regionLevel? id 0 = some (RegionPosition.level ⟨team, w.enteredIn task.team⟩) := by
  simp [regionLevel?, innermostRegion?, regionOfTeam?, regionWalk?, hw, hcurrent, htask, hteam]

/-- The region that a worker is in lies in the team of its task. -/
theorem Sound.team_of_innermost? (hh : h.Sound) (hw : h.worker? id = some w)
    (hcurrent : w.current = some current) (htask : h.task? current = some task)
    {region : SerialRegion} {rest : List SerialRegion}
    (hinnermost : w.innermost? = some (region, rest)) : region.team = task.team := by
  obtain ⟨hregions, hanchor⟩ := Worker.innermost?_eq_some_iff.mp hinnermost
  have hrooted := (hh.worker hw).regions region (by simp [hregions])
  cases hcurrent.symm.trans hanchor
  rw [htask] at hrooted
  exact (Option.some.inj hrooted).symm

/-- A write reaches the first level of the queries of tasks exactly if the regions of the task are
not covered, and that of the queries of regions exactly if those in its team are not covered. -/
theorem setRegionData_front {team : Team} (hh : h.Sound) (hw : h.worker? id = some w)
    (hcurrent : w.current = some current) (htask : h.task? current = some task)
    (hteam : h.team? task.team = some team) (data : UInt64) :
    (h.setRegionData id data).1 = true ∧
      ∃ w' team', (h.setRegionData id data).2.worker? id = some w' ∧ w'.current = some current ∧
        (h.setRegionData id data).2.task? current = some task ∧
        (h.setRegionData id data).2.team? task.team = some team' ∧
        (h.setRegionData id data).2.parallelDataOf? (w'.frontSite current task) =
          (if w.Uncovered (w.anchoredOn current) then some data
            else h.parallelDataOf? (w.frontSite current task)) ∧
        (RegionPosition.level ⟨team', w'.enteredIn task.team⟩).parallelData =
          if w.Uncovered (w.enteredIn task.team) then data
          else (RegionPosition.level ⟨team, w.enteredIn task.team⟩).parallelData := by
  rcases Worker.innermost?_cases hcurrent with
    ⟨region, rest, hinnermost, hanchor, -⟩ | hinnermost
  · let front : SerialRegion :=
      { region with teamPayload := { region.teamPayload with parallelData := data } }
    let w' : Worker := { w with regions := front :: rest }
    have hset : h.setRegionData id data = (true, h.updateWorker id w') := by
      simp [setRegionData, hw, hinnermost, w', front]
    have hregion : region.team = task.team := hh.team_of_innermost? hw hcurrent htask hinnermost
    rw [hset, if_pos (w.uncovered_of_innermost? hinnermost _),
      if_pos (w.uncovered_of_innermost? hinnermost _)]
    refine ⟨rfl, w', team, ?_, hcurrent, htask, hteam, ?_, ?_⟩
    · rw [worker?_updateWorker hw, if_pos rfl]
    · rw [Worker.frontSite, Worker.anchoredOn_front (w := w') rfl hanchor]
      rfl
    · rw [Worker.enteredIn_front (w := w') rfl hregion]
      rfl
  · let team' : Team := { team with payload := { team.payload with parallelData := data } }
    have hset : h.setRegionData id data = (true, h.updateTeam task.team team') := by
      simp [setRegionData, hw, hinnermost, hcurrent, htask, hteam, team']
    have hteam' : (h.updateTeam task.team team').team? task.team = some team' := by
      rw [team?_updateTeam hteam, if_pos rfl]
    have hnil := Worker.uncovered_iff_nil hinnermost
    rw [hset]
    refine ⟨rfl, w, team', hw, hcurrent, htask, hteam', ?_, ?_⟩
    · unfold Worker.frontSite
      cases w.anchoredOn current with
      | nil =>
        rw [if_pos ((hnil _).mpr rfl)]
        simp [parallelDataOf?, hteam', team']
      | cons region rest =>
        rw [if_neg fun h => List.cons_ne_nil _ _ ((hnil _).mp h)]
        rfl
    · cases w.enteredIn task.team with
      | nil =>
        rw [if_pos ((hnil _).mpr rfl)]
        rfl
      | cons region rest =>
        rw [if_neg fun h => List.cons_ne_nil _ _ ((hnil _).mp h)]
        rfl

/-- In any hierarchy that edits have made, a write to the data of the innermost parallel region of a
worker succeeds as soon as the worker runs a task. The queries of tasks then tell of what was
written as long as the worker is in its latest region or has no region that was entered from its
task, and the queries of parallel regions as long as it is in its latest region or has none in the
team of its task. Otherwise they tell of what they did before. -/
theorem region_data_reported (edits : List Edit) {id : WorkerId} {w : Worker}
    (hw : (ofEdits edits).worker? id = some w) (data : UInt64) :
    let h := ofEdits edits
    let written := h.setRegionData id data
    written.1 = w.current.isSome ∧
      ∀ current task, w.current = some current → h.task? current = some task →
        (written.2.taskLevel? id 0).map TaskLevel.parallelData =
          (if w.Uncovered (w.anchoredOn current) then some data
            else (h.taskLevel? id 0).map TaskLevel.parallelData) ∧
        (written.2.regionLevel? id 0).map RegionLevel.parallelData =
          (if w.Uncovered (w.enteredIn task.team) then some data
            else (h.regionLevel? id 0).map RegionLevel.parallelData) := by
  intro h written
  have hh : h.Sound := sound_ofEdits edits
  constructor
  · cases hcurrent : w.current with
    | none =>
      have hinnermost : w.innermost? = none := by
        unfold Worker.innermost?
        cases w.regions <;> simp [hcurrent]
      simp [written, setRegionData, h, hw, hinnermost, hcurrent]
    | some current =>
      obtain ⟨task, htask⟩ := Option.isSome_iff_exists.mp ((hh.worker hw).current current hcurrent)
      obtain ⟨team, hteam⟩ := Option.isSome_iff_exists.mp (hh.team htask)
      exact (setRegionData_front hh hw hcurrent htask hteam data).1
  · intro current task hcurrent htask
    obtain ⟨team, hteam⟩ := Option.isSome_iff_exists.mp (hh.team htask)
    obtain ⟨-, w', team', hw', hcurrent', htask', hteam', hlevel, hregion⟩ :=
      setRegionData_front hh hw hcurrent htask hteam data
    have hafter : written.2.Sound := hh.edit (.setRegionData id data)
    constructor
    · rw [taskLevel?_zero_parallelData hafter hw' hcurrent' htask', hlevel,
        taskLevel?_zero_parallelData hh hw hcurrent htask]
    · rw [regionLevel?_zero hw' hcurrent' htask' hteam', regionLevel?_zero hw hcurrent htask hteam,
        Option.map_some, Option.map_some, hregion]
      split <;> rfl

/-- The same worker, with its tasks in two teams, turns back to the first task. What is written then
goes to the team, and both queries tell of the region below. -/
theorem covered_region_hides_data :
    let task (team : Nat) (parent : Option TaskId) : Task :=
      { team := ⟨team⟩, type := { kind := .implicit }, parent, schedulingParent := none
        payload := {} }
    let h := ofEdits [.addWorker, .addTeam none 1 0 0 {}, .addTeam none 1 0 0 {},
      .setSlot ⟨0⟩ 0 (some ⟨0⟩), .addTask (task 0 none), .addTask (task 0 (some ⟨0⟩)),
      .addTask (task 1 (some ⟨0⟩)), .assign ⟨0⟩ ⟨1⟩ 0, .enterSerial ⟨0⟩ 7 0, .assign ⟨0⟩ ⟨2⟩ 0,
      .enterSerial ⟨0⟩ 8 0, .assign ⟨0⟩ ⟨1⟩ 0]
    let written := h.setRegionData ⟨0⟩ 9
    written.1 = true ∧ (written.2.taskLevel? ⟨0⟩ 0).map TaskLevel.parallelData = some 7 ∧
      (written.2.regionLevel? ⟨0⟩ 0).map RegionLevel.parallelData = some 7 := by
  decide +kernel

/-- An explicit task runs inside of a region that was entered from another task of its team. -/
theorem region_data_reported_of_explicit_task :
    let task (kind : TaskKind) (parent : Option TaskId) : Task :=
      { team := ⟨0⟩, type := { kind }, parent, schedulingParent := parent, payload := {} }
    let edits : List Edit := [.addWorker, .addTeam none 1 0 0 {}, .addTask (task .implicit none),
      .addTask (task .explicit (some ⟨0⟩)), .assign ⟨0⟩ ⟨0⟩ 0, .enterSerial ⟨0⟩ 7 0,
      .assign ⟨0⟩ ⟨1⟩ 0]
    let w : Worker := { current := some ⟨1⟩, regions :=
      [{ team := ⟨0⟩, anchor := ⟨0⟩, teamPayload := { parallelData := 7 } }] }
    let written := (ofEdits edits).setRegionData ⟨0⟩ 9
    (ofEdits edits).worker? ⟨0⟩ = some w ∧ written.1 = true ∧
      (written.2.taskLevel? ⟨0⟩ 0).map TaskLevel.parallelData = some 9 ∧
      (written.2.regionLevel? ⟨0⟩ 0).map RegionLevel.parallelData = some 7 := by
  intro task edits w written
  have hw : (ofEdits edits).worker? ⟨0⟩ = some w := by decide +kernel
  have htask : (ofEdits edits).task? ⟨1⟩ = some (task .explicit (some ⟨0⟩)) := by decide +kernel
  have huncovered : w.Uncovered (w.anchoredOn ⟨1⟩) := by decide
  have hcovered : ¬ w.Uncovered (w.enteredIn ⟨0⟩) := by decide
  obtain ⟨hdone, htold⟩ := region_data_reported edits hw 9
  obtain ⟨hlevel, hregion⟩ := htold ⟨1⟩ _ rfl htask
  rw [if_pos huncovered] at hlevel
  rw [if_neg hcovered] at hregion
  exact ⟨hw, hdone, hlevel, hregion.trans (by decide +kernel)⟩

end Hierarchy
end DeviceTrace
