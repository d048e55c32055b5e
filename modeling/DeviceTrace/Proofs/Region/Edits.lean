import DeviceTrace.Region.RegionWalk
import DeviceTrace.Region.TaskWalk
import Mathlib.Data.List.Induction

/-!
# What can become of a hierarchy

An edit is anything that may be done to a hierarchy, with any handles. Every edit is made of a few
moves: a team, a task or a worker is added, the slots or the data of a team or the payload of a task
change, or a worker does something. Handles only ever lead to what was added before, so walks
outward come to an end, and a serial region lies in the team of the task that it was entered from.
-/

namespace DeviceTrace
namespace Hierarchy

inductive Edit
  | addTeam (parent : Option TeamId) (size masterNumber : Nat) (serialized : UInt32)
      (payload : TeamPayload)
  | addTask (task : Task)
  | addWorker
  | setSlot (team : TeamId) (slot : Nat) (worker : Option WorkerId)
  | assign (worker : WorkerId) (task : TaskId) (number : Nat)
  | enterSerial (worker : WorkerId) (parallelData returnAddress : UInt64)
  | leaveSerial (worker : WorkerId)
  | setSerialTask (handle : SerialHandle) (payload : TaskPayload)
  | setCurrentPayload (worker : WorkerId) (payload : TaskPayload)
  | setRegionData (worker : WorkerId) (parallelData : UInt64)
  | noteEntry (worker : WorkerId) (address : UInt64) (flags : UInt32)

def edit (h : Hierarchy) : Edit → Hierarchy
  | .addTeam parent size masterNumber serialized payload =>
    (h.addTeam parent size masterNumber serialized payload).2
  | .addTask task => (h.addTask task).2
  | .addWorker => h.addWorker.2
  | .setSlot team slot worker => (h.setSlot team slot worker).2
  | .assign worker task number => (h.assign worker task number).2
  | .enterSerial worker parallelData returnAddress =>
    (h.enterSerial worker parallelData returnAddress).2
  | .leaveSerial worker => (h.leaveSerial worker).2
  | .setSerialTask handle payload => (h.setSerialTask handle payload).2
  | .setCurrentPayload worker payload => (h.setCurrentPayload worker payload).2
  | .setRegionData worker parallelData => (h.setRegionData worker parallelData).2
  | .noteEntry worker address flags => (h.noteEntry worker address flags).2

/-- The hierarchy that some edits make of an empty one. -/
def ofEdits (edits : List Edit) : Hierarchy := edits.foldl edit {}

end Hierarchy

/-! ## Lookups -/

namespace Hierarchy

variable {h : Hierarchy}

@[simp] theorem team?_updateTask (id : TaskId) (task : Task) (other : TeamId) :
    (h.updateTask id task).team? other = h.team? other := rfl

@[simp] theorem team?_updateWorker (id : WorkerId) (w : Worker) (other : TeamId) :
    (h.updateWorker id w).team? other = h.team? other := rfl

@[simp] theorem task?_updateTeam (id : TeamId) (team : Team) (other : TaskId) :
    (h.updateTeam id team).task? other = h.task? other := rfl

@[simp] theorem task?_updateWorker (id : WorkerId) (w : Worker) (other : TaskId) :
    (h.updateWorker id w).task? other = h.task? other := rfl

@[simp] theorem worker?_updateTeam (id : TeamId) (team : Team) (other : WorkerId) :
    (h.updateTeam id team).worker? other = h.worker? other := rfl

@[simp] theorem worker?_updateTask (id : TaskId) (task : Task) (other : WorkerId) :
    (h.updateTask id task).worker? other = h.worker? other := rfl

theorem team?_updateTeam {id : TeamId} {old : Team} (hold : h.team? id = some old) (new : Team)
    (other : TeamId) :
    (h.updateTeam id new).team? other = if id = other then some new else h.team? other := by
  obtain ⟨i⟩ := id
  obtain ⟨j⟩ := other
  have hlt : i < h.teams.length := (List.getElem?_eq_some_iff.mp hold).1
  simp [team?, updateTeam, List.getElem?_set, hlt]

theorem task?_updateTask {id : TaskId} {old : Task} (hold : h.task? id = some old) (new : Task)
    (other : TaskId) :
    (h.updateTask id new).task? other = if id = other then some new else h.task? other := by
  obtain ⟨i⟩ := id
  obtain ⟨j⟩ := other
  have hlt : i < h.tasks.length := (List.getElem?_eq_some_iff.mp hold).1
  simp [task?, updateTask, List.getElem?_set, hlt]

theorem worker?_updateWorker {id : WorkerId} {old : Worker} (hold : h.worker? id = some old)
    (new : Worker) (other : WorkerId) :
    (h.updateWorker id new).worker? other = if id = other then some new else h.worker? other := by
  obtain ⟨i⟩ := id
  obtain ⟨j⟩ := other
  have hlt : i < h.workers.length := (List.getElem?_eq_some_iff.mp hold).1
  simp [worker?, updateWorker, List.getElem?_set, hlt]

theorem isSome_team?_iff {id : TeamId} : (h.team? id).isSome ↔ id.index < h.teams.length := by
  simp [team?]

theorem isSome_task?_iff {id : TaskId} : (h.task? id).isSome ↔ id.index < h.tasks.length := by
  simp [task?]

end Hierarchy

theorem Worker.innermost?_eq_some_iff {w : Worker} {region : SerialRegion}
    {rest : List SerialRegion} :
    w.innermost? = some (region, rest) ↔
      w.regions = region :: rest ∧ w.current = some region.anchor := by
  unfold innermost?
  cases w.regions with
  | nil => simp
  | cons top below =>
    simp only [Option.ite_none_right_eq_some, Option.some.injEq, Prod.mk.injEq, List.cons.injEq]
    constructor
    · rintro ⟨hcurrent, rfl, rfl⟩
      exact ⟨⟨rfl, rfl⟩, hcurrent⟩
    · rintro ⟨⟨rfl, rfl⟩, hcurrent⟩
      exact ⟨hcurrent, rfl, rfl⟩

/-! ## Moves -/

/-- A worker of a hierarchy is given another task, enters or leaves a serial region, gets other data
into its regions or another state. -/
inductive Worker.Move (h : Hierarchy) (w : Worker) : Worker → Prop
  | assign {id : TaskId} {task : Task} (number : Nat) : h.task? id = some task →
      Move h w { w with current := some id, number }
  | enter {anchor : TaskId} {task : Task} (teamPayload : TeamPayload) : w.current = some anchor →
      h.task? anchor = some task →
      Move h w { w with regions := { team := task.team, anchor, teamPayload } :: w.regions }
  | leave : Move h w { w with regions := w.regions.tail }
  | relabel {regions : List SerialRegion} :
      regions.map (fun r => (r.anchor, r.team)) = w.regions.map (fun r => (r.anchor, r.team)) →
      Move h w { w with regions }
  | turn (state : WorkerState) : Move h w { w with state }

namespace Hierarchy

inductive Move (h : Hierarchy) : Hierarchy → Prop
  | stay : Move h h
  | addTeam (team : Team) : (∀ parent ∈ team.parent, (h.team? parent).isSome) →
      Move h { h with teams := h.teams ++ [team] }
  | addTask (task : Task) : (h.team? task.team).isSome →
      (∀ parent ∈ task.parent, (h.task? parent).isSome) →
      (∀ scheduler ∈ task.schedulingParent, (h.task? scheduler).isSome) →
      Move h { h with tasks := h.tasks ++ [task] }
  | addWorker : Move h { h with workers := h.workers ++ [{}] }
  | team {id : TeamId} {old : Team} (new : Team) : h.team? id = some old →
      new.parent = old.parent → Move h (h.updateTeam id new)
  | task {id : TaskId} {old : Task} (payload : TaskPayload) : h.task? id = some old →
      Move h (h.updateTask id { old with payload })
  | worker {id : WorkerId} {old new : Worker} : h.worker? id = some old → old.Move h new →
      Move h (h.updateWorker id new)

section
variable (h : Hierarchy)

theorem move_addTeam (parent : Option TeamId) (size masterNumber : Nat) (serialized : UInt32)
    (payload : TeamPayload) :
    h.Move (h.addTeam parent size masterNumber serialized payload).2 := by
  unfold addTeam
  split
  · rename_i hparent
    exact .addTeam _ (by simpa [Option.all_eq_true] using hparent)
  · exact .stay

theorem move_addTask (task : Task) : h.Move (h.addTask task).2 := by
  unfold addTask
  split
  · rename_i hknown
    simp only [Bool.and_eq_true, Option.all_eq_true] at hknown
    obtain ⟨⟨hteam, hparent⟩, hscheduler⟩ := hknown
    exact .addTask task hteam hparent hscheduler
  · exact .stay

theorem move_setSlot (id : TeamId) (slot : Nat) (worker : Option WorkerId) :
    h.Move (h.setSlot id slot worker).2 := by
  unfold setSlot
  split
  · rename_i team hteam
    split
    · exact .team _ hteam rfl
    · exact .stay
  · exact .stay

theorem move_assign (worker : WorkerId) (task : TaskId) (number : Nat) :
    h.Move (h.assign worker task number).2 := by
  unfold assign
  split
  · rename_i htask hw
    exact .worker hw (.assign number htask)
  · exact .stay

theorem move_enterSerial (id : WorkerId) (parallelData returnAddress : UInt64) :
    h.Move (h.enterSerial id parallelData returnAddress).2 := by
  unfold enterSerial
  split
  · exact .stay
  · rename_i w hw
    split
    · exact .stay
    · rename_i anchor task hanchor
      obtain ⟨current, hcurrent, hmap⟩ := Option.bind_eq_some_iff.mp hanchor
      obtain ⟨known, htask, heq⟩ := Option.map_eq_some_iff.mp hmap
      cases heq
      exact .worker hw (.enter _ hcurrent htask)

theorem move_leaveSerial (id : WorkerId) : h.Move (h.leaveSerial id).2 := by
  unfold leaveSerial
  split
  · exact .stay
  · rename_i w hw
    split
    · exact .stay
    · rename_i region rest hregions
      have hleave := Worker.Move.leave (h := h) (w := w)
      rw [hregions] at hleave
      exact .worker hw hleave

theorem move_setSerialTask (handle : SerialHandle) (payload : TaskPayload) :
    h.Move (h.setSerialTask handle payload).2 := by
  unfold setSerialTask
  split
  · exact .stay
  · rename_i w hw
    split
    · exact .stay
    · rename_i place _
      refine .worker hw (.relabel (List.ext_getElem? fun i => ?_))
      rw [List.getElem?_map, List.getElem?_map, List.getElem?_modify]
      cases w.regions[i]? with
      | none => rfl
      | some region => by_cases hi : place = i <;> simp [hi]

theorem move_setCurrentPayload (id : WorkerId) (payload : TaskPayload) :
    h.Move (h.setCurrentPayload id payload).2 := by
  unfold setCurrentPayload
  split
  · exact .stay
  · rename_i w hw
    split
    · rename_i region rest hinnermost
      obtain ⟨hregions, -⟩ := Worker.innermost?_eq_some_iff.mp hinnermost
      exact .worker hw (.relabel (by simp [hregions]))
    · split
      · rename_i current task hcurrent
        obtain ⟨_, -, hmap⟩ := Option.bind_eq_some_iff.mp hcurrent
        obtain ⟨_, htask, heq⟩ := Option.map_eq_some_iff.mp hmap
        cases heq
        exact .task payload htask
      · exact .stay

theorem move_setRegionData (id : WorkerId) (parallelData : UInt64) :
    h.Move (h.setRegionData id parallelData).2 := by
  unfold setRegionData
  split
  · exact .stay
  · rename_i w hw
    split
    · rename_i region rest hinnermost
      obtain ⟨hregions, -⟩ := Worker.innermost?_eq_some_iff.mp hinnermost
      exact .worker hw (.relabel (by simp [hregions]))
    · split
      · exact .stay
      · split
        · exact .stay
        · rename_i team hteam
          exact .team _ hteam rfl

/-- Noting an entry is two moves: one of the payload, one of the worker. -/
theorem moves_noteEntry (id : WorkerId) (address : UInt64) (flags : UInt32) :
    ∃ mid, h.Move mid ∧ mid.Move (h.noteEntry id address flags).2 := by
  unfold noteEntry
  split
  · exact ⟨h, .stay, .stay⟩
  · rename_i payload _
    refine ⟨_, h.move_setCurrentPayload id
      { payload with frame := { payload.frame with enter := address, enterFlags := flags } }, ?_⟩
    dsimp only
    split
    · exact .stay
    · rename_i w hw
      exact .worker hw (.turn _)

end

/-- What every move keeps is kept by every edit. -/
theorem edit_keeps {P : Hierarchy → Prop} (hmove : ∀ {a b : Hierarchy}, P a → a.Move b → P b)
    {h : Hierarchy} (hP : P h) (e : Edit) : P (h.edit e) := by
  cases e with
  | addTeam parent size masterNumber serialized payload =>
    exact hmove hP (h.move_addTeam parent size masterNumber serialized payload)
  | addTask task => exact hmove hP (h.move_addTask task)
  | addWorker => exact hmove hP .addWorker
  | setSlot team slot worker => exact hmove hP (h.move_setSlot team slot worker)
  | assign worker task number => exact hmove hP (h.move_assign worker task number)
  | enterSerial worker parallelData returnAddress =>
    exact hmove hP (h.move_enterSerial worker parallelData returnAddress)
  | leaveSerial worker => exact hmove hP (h.move_leaveSerial worker)
  | setSerialTask handle payload => exact hmove hP (h.move_setSerialTask handle payload)
  | setCurrentPayload worker payload => exact hmove hP (h.move_setCurrentPayload worker payload)
  | setRegionData worker parallelData => exact hmove hP (h.move_setRegionData worker parallelData)
  | noteEntry worker address flags =>
    obtain ⟨mid, hfirst, hsecond⟩ := h.moves_noteEntry worker address flags
    exact hmove (hmove hP hfirst) hsecond

theorem ofEdits_keeps {P : Hierarchy → Prop} (hmove : ∀ {a b : Hierarchy}, P a → a.Move b → P b)
    (hempty : P {}) (edits : List Edit) : P (ofEdits edits) := by
  unfold ofEdits
  induction edits using List.reverseRecOn with
  | nil => exact hempty
  | append_singleton edits e ih =>
    rw [List.foldl_append]
    exact edit_keeps hmove ih e

end Hierarchy

/-! ## Handles lead back -/

/-- The task that a worker runs is known, and so is the task that each of its regions was entered
from, which belongs to the team of the region. -/
structure Worker.Rooted (h : Hierarchy) (w : Worker) : Prop where
  current : ∀ id ∈ w.current, (h.task? id).isSome
  regions : ∀ region ∈ w.regions, (h.task? region.anchor).map Task.team = some region.team

/-- All handles in a hierarchy are known, and those of parents and schedulers come earlier. -/
structure Hierarchy.Sound (h : Hierarchy) : Prop where
  parent_lt : ∀ {id team}, h.team? id = some team → ∀ parent ∈ team.parent, parent.index < id.index
  team : ∀ {id task}, h.task? id = some task → (h.team? task.team).isSome
  taskParent_lt : ∀ {id task}, h.task? id = some task →
    ∀ parent ∈ task.parent, parent.index < id.index
  scheduler_lt : ∀ {id task}, h.task? id = some task →
    ∀ scheduler ∈ task.schedulingParent, scheduler.index < id.index
  worker : ∀ {id w}, h.worker? id = some w → w.Rooted h

namespace Hierarchy

variable {h h' : Hierarchy}

/-- A known team stays known, and a known task keeps its team. -/
structure Grows (h h' : Hierarchy) : Prop where
  team : ∀ {id}, (h.team? id).isSome → (h'.team? id).isSome
  task : ∀ {id task}, h.task? id = some task → (h'.task? id).map Task.team = some task.team

theorem Move.grows (hmove : h.Move h') : h.Grows h' := by
  cases hmove with
  | stay | addWorker | worker _ _ =>
    exact ⟨fun hteam => hteam, fun htask => congrArg (Option.map Task.team) htask⟩
  | addTeam team _ =>
    refine ⟨fun hteam => ?_, fun htask => congrArg (Option.map Task.team) htask⟩
    rw [isSome_team?_iff] at hteam ⊢
    simp only [List.length_append]
    omega
  | addTask task _ _ _ =>
    refine ⟨fun hteam => hteam, fun {id known} htask => ?_⟩
    have hlt : id.index < h.tasks.length := (List.getElem?_eq_some_iff.mp htask).1
    have hsame : (h.tasks ++ [task])[id.index]? = some known :=
      (List.getElem?_append_left hlt).trans htask
    rw [task?, hsame]
    rfl
  | team new hold _ =>
    refine ⟨fun {id} hteam => ?_, fun htask => by simp [htask]⟩
    rw [team?_updateTeam hold]
    split
    · rfl
    · exact hteam
  | task payload hold =>
    refine ⟨fun hteam => hteam, fun {id task} htask => ?_⟩
    rw [task?_updateTask hold]
    split
    · rename_i hid
      subst hid
      cases hold.symm.trans htask
      rfl
    · rw [htask]
      rfl

theorem getElem?_concat_cases {α : Type} {l : List α} {last a : α} {i : Nat}
    (ha : (l ++ [last])[i]? = some a) : l[i]? = some a ∨ i = l.length ∧ a = last := by
  rcases Nat.lt_or_ge i l.length with hlt | hge
  · rw [List.getElem?_append_left hlt] at ha
    exact .inl ha
  · rw [List.getElem?_append_right hge] at ha
    obtain ⟨hlt, hlast⟩ := List.getElem?_eq_some_iff.mp ha
    simp only [List.length_singleton] at hlt
    refine .inr ⟨by omega, ?_⟩
    rw [← hlast]
    simp

/-- A team was there before, or it is new and its parent was there. -/
theorem Move.team_cases (hmove : h.Move h') {id : TeamId} {team : Team}
    (hteam : h'.team? id = some team) :
    (∃ before, h.team? id = some before ∧ team.parent = before.parent) ∨
      id.index = h.teams.length ∧ ∀ parent ∈ team.parent, (h.team? parent).isSome := by
  cases hmove with
  | stay | addTask _ _ _ _ | addWorker | task _ _ | worker _ _ => exact .inl ⟨team, hteam, rfl⟩
  | addTeam new hparent =>
    rcases getElem?_concat_cases hteam with hbefore | ⟨hid, rfl⟩
    · exact .inl ⟨team, hbefore, rfl⟩
    · exact .inr ⟨hid, hparent⟩
  | team new hold hparent =>
    rw [team?_updateTeam hold] at hteam
    split at hteam
    · rename_i hid
      subst hid
      cases hteam
      exact .inl ⟨_, hold, hparent⟩
    · exact .inl ⟨team, hteam, rfl⟩

/-- A task was there before, with another payload at most, or it is new and belongs to what was
there. -/
theorem Move.task_cases (hmove : h.Move h') {id : TaskId} {task : Task}
    (htask : h'.task? id = some task) :
    (∃ before payload, h.task? id = some before ∧ task = { before with payload }) ∨
      id.index = h.tasks.length ∧ (h.team? task.team).isSome ∧
        (∀ parent ∈ task.parent, (h.task? parent).isSome) ∧
        ∀ scheduler ∈ task.schedulingParent, (h.task? scheduler).isSome := by
  cases hmove with
  | stay | addTeam _ _ | addWorker | team _ _ _ | worker _ _ =>
    exact .inl ⟨task, task.payload, htask, rfl⟩
  | addTask new hteam hparent hscheduler =>
    rcases getElem?_concat_cases htask with hbefore | ⟨hid, rfl⟩
    · exact .inl ⟨task, task.payload, hbefore, rfl⟩
    · exact .inr ⟨hid, hteam, hparent, hscheduler⟩
  | task payload hold =>
    rw [task?_updateTask hold] at htask
    split at htask
    · rename_i hid
      subst hid
      cases htask
      exact .inl ⟨_, payload, hold, rfl⟩
    · exact .inl ⟨task, task.payload, htask, rfl⟩

/-- A worker was there before, is new or has done one thing. -/
theorem Move.worker_cases (hmove : h.Move h') {id : WorkerId} {w : Worker}
    (hw : h'.worker? id = some w) :
    h.worker? id = some w ∨ w = {} ∨ ∃ before, h.worker? id = some before ∧ before.Move h w := by
  cases hmove with
  | stay | addTeam _ _ | addTask _ _ _ _ | team _ _ _ | task _ _ => exact .inl hw
  | addWorker =>
    rcases getElem?_concat_cases hw with hbefore | ⟨-, rfl⟩
    · exact .inl hbefore
    · exact .inr (.inl rfl)
  | worker hold hdone =>
    rw [worker?_updateWorker hold] at hw
    split at hw
    · rename_i hid
      subst hid
      cases hw
      exact .inr (.inr ⟨_, hold, hdone⟩)
    · exact .inl hw

end Hierarchy

namespace Worker.Rooted

variable {h h' : Hierarchy} {w w' : Worker}

theorem empty (h : Hierarchy) : Worker.Rooted h {} :=
  ⟨fun _ hid => (Option.not_mem_none _ hid).elim, fun _ hregion => (List.not_mem_nil hregion).elim⟩

theorem grow (hw : w.Rooted h) (hgrows : h.Grows h') : w.Rooted h' := by
  refine ⟨fun id hid => ?_, fun region hregion => ?_⟩
  · obtain ⟨task, htask⟩ := Option.isSome_iff_exists.mp (hw.current id hid)
    simpa using congrArg Option.isSome (hgrows.task htask)
  · obtain ⟨task, htask, hteam⟩ := Option.map_eq_some_iff.mp (hw.regions region hregion)
    rw [← hteam]
    exact hgrows.task htask

theorem move (hw : w.Rooted h) (hmove : w.Move h w') : w'.Rooted h := by
  cases hmove with
  | assign number htask =>
    refine ⟨fun id hid => ?_, hw.regions⟩
    cases hid
    rw [htask]
    rfl
  | enter teamPayload hcurrent htask =>
    refine ⟨hw.current, fun region hregion => ?_⟩
    rcases List.mem_cons.mp hregion with rfl | hbefore
    · rw [htask]
      rfl
    · exact hw.regions region hbefore
  | leave =>
    refine ⟨hw.current, fun region hregion => ?_⟩
    exact hw.regions region (List.mem_of_mem_tail hregion)
  | relabel hsame =>
    refine ⟨hw.current, fun region hregion => ?_⟩
    -- a region with the same anchor and the same team was there before
    have hmem := List.mem_map_of_mem (f := fun r : SerialRegion => (r.anchor, r.team)) hregion
    rw [hsame] at hmem
    obtain ⟨before, hbefore, heq⟩ := List.mem_map.mp hmem
    obtain ⟨hanchor, hteam⟩ := Prod.mk.inj heq
    rw [← hanchor, ← hteam]
    exact hw.regions before hbefore
  | turn state => exact ⟨hw.current, hw.regions⟩

end Worker.Rooted

namespace Hierarchy

variable {h h' : Hierarchy}

theorem sound_empty : Sound {} := by
  constructor <;> simp [team?, task?, worker?]

theorem Sound.move (hh : h.Sound) (hmove : h.Move h') : h'.Sound where
  parent_lt := by
    intro id team hteam parent hparent
    rcases hmove.team_cases hteam with ⟨before, hbefore, hsame⟩ | ⟨hid, hknown⟩
    · exact hh.parent_lt hbefore parent (hsame ▸ hparent)
    · rw [hid]
      exact isSome_team?_iff.mp (hknown parent hparent)
  team := by
    intro id task htask
    rcases hmove.task_cases htask with ⟨before, payload, hbefore, rfl⟩ | ⟨-, hteam, -⟩
    · have hteam := hh.team hbefore
      exact hmove.grows.team hteam
    · exact hmove.grows.team hteam
  taskParent_lt := by
    intro id task htask parent hparent
    rcases hmove.task_cases htask with ⟨before, payload, hbefore, rfl⟩ | ⟨hid, -, hknown, -⟩
    · exact hh.taskParent_lt hbefore parent hparent
    · rw [hid]
      exact isSome_task?_iff.mp (hknown parent hparent)
  scheduler_lt := by
    intro id task htask scheduler hscheduler
    rcases hmove.task_cases htask with ⟨before, payload, hbefore, rfl⟩ | ⟨hid, -, -, hknown⟩
    · exact hh.scheduler_lt hbefore scheduler hscheduler
    · rw [hid]
      exact isSome_task?_iff.mp (hknown scheduler hscheduler)
  worker := by
    intro id w hw
    rcases hmove.worker_cases hw with hbefore | rfl | ⟨before, hbefore, hdone⟩
    · exact (hh.worker hbefore).grow hmove.grows
    · exact .empty h'
    · exact ((hh.worker hbefore).move hdone).grow hmove.grows

theorem Sound.edit (hh : h.Sound) (e : Edit) : (h.edit e).Sound :=
  edit_keeps Sound.move hh e

theorem sound_ofEdits (edits : List Edit) : (ofEdits edits).Sound :=
  ofEdits_keeps Sound.move sound_empty edits

end Hierarchy
end DeviceTrace
