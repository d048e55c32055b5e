import DeviceTrace.Proofs.Region.Chains
import DeviceTrace.Proofs.Region.Edits

/-!
# The levels around a worker

Outward from the current task of a worker lies a chain of tasks, and with each of them, on the
inside, the serial regions that the worker entered from it. A walk outward passes these levels one
after the other and ends behind the last one. There is only one chain, and it is finite because
parents and schedulers were added before their tasks.
-/

namespace DeviceTrace

/-- The next task outward: the one that scheduled this one, where scheduling is followed and there
is one, and else the parent. -/
def Task.outer? (task : Task) (scheduling : Bool) : Option TaskId :=
  if scheduling then task.schedulingParent.or task.parent else task.parent

/-- All tasks from a task outward. -/
abbrev Hierarchy.TaskChain (h : Hierarchy) (scheduling : Bool) :
    TaskId → List (TaskId × Task) → Prop :=
  OwnerChain h.task? (Task.outer? · scheduling)

/-- A level is a serial region or a task. -/
inductive TaskSite
  | serial (region : SerialRegion)
  | task (task : Task)
  deriving DecidableEq, Repr

def TaskSite.payload : TaskSite → TaskPayload
  | .serial region => region.taskPayload
  | .task t => t.payload

/-- The data of the serial region, or of the team that the task belongs to. -/
def Hierarchy.parallelDataOf? (h : Hierarchy) : TaskSite → Option UInt64
  | .serial region => some region.teamPayload.parallelData
  | .task t => (h.team? t.team).map fun team => team.payload.parallelData

/-- The levels of a chain: with each task the serial regions of the worker that were entered from
it, the latest first, and then the task. -/
def Worker.sites (w : Worker) (chain : List (TaskId × Task)) : List TaskSite :=
  chain.flatMap fun (id, task) => (w.anchoredOn id).map .serial ++ [.task task]

def TaskPosition.site (p : TaskPosition) : TaskSite :=
  match p.pending with
  | region :: _ => .serial region
  | [] => .task p.task

namespace Hierarchy

variable {h : Hierarchy} {w : Worker} {scheduling : Bool} {p : TaskPosition}

/-! ## One step outward -/

theorem outward?_pending {region : SerialRegion} {rest : List SerialRegion}
    (hpending : p.pending = region :: rest) :
    h.outward? w scheduling p = some { p with pending := rest } := by
  simp [outward?, hpending]

theorem outward?_last (hpending : p.pending = []) (hlast : p.task.outer? scheduling = none) :
    h.outward? w scheduling p = none := by
  cases scheduling with
  | false =>
    have hparent : p.task.parent = none := hlast
    simp [outward?, hpending, hparent]
  | true =>
    obtain ⟨hscheduler, hparent⟩ := Option.or_eq_none_iff.mp hlast
    simp [outward?, hpending, hscheduler, hparent]

theorem outward?_next {outer : TaskId} {task : Task} (hpending : p.pending = [])
    (houter : p.task.outer? scheduling = some outer) (htask : h.task? outer = some task) :
    ∃ left, h.outward? w scheduling p = some ⟨outer, task, w.anchoredOn outer, left⟩ := by
  cases scheduling with
  | false =>
    have hparent : p.task.parent = some outer := houter
    simp [outward?, hpending, hparent, htask]
  | true =>
    rcases Option.or_eq_some_iff.mp houter with hscheduler | ⟨hscheduler, hparent⟩
    · simp [outward?, hpending, hscheduler, htask]
    · simp [outward?, hpending, hscheduler, hparent, htask]

/-! ## The walk -/

/-- A position that a walk can come to: its task and the team that the walk has left are known, and
it has still to pass some of the regions entered from the task. -/
structure Reachable (h : Hierarchy) (w : Worker) (p : TaskPosition) : Prop where
  task : h.task? p.id = some p.task
  left : ∀ team ∈ p.left, (h.team? team).isSome
  pending : p.pending <:+ w.anchoredOn p.id

theorem reachable_innermost (hp : h.innermostTask? w = some p) : h.Reachable w p := by
  obtain ⟨current, -, hrest⟩ := Option.bind_eq_some_iff.mp hp
  obtain ⟨task, htask, hstart⟩ := Option.bind_eq_some_iff.mp hrest
  cases hstart
  exact ⟨htask, nofun, List.suffix_rfl⟩

/-- A step goes past a region or to a task that the hierarchy has, and the team that it leaves is
the one of a task. -/
theorem Sound.reachable_outward (hh : h.Sound) (hp : h.Reachable w p) {q : TaskPosition}
    (hstep : h.outward? w scheduling p = some q) : h.Reachable w q := by
  unfold outward? at hstep
  cases hpending : p.pending with
  | cons region rest =>
    rw [hpending] at hstep
    cases hstep
    have hsuffix := hp.pending
    rw [hpending] at hsuffix
    exact ⟨hp.task, hp.left, (List.suffix_cons region rest).trans hsuffix⟩
  | nil =>
    rw [hpending] at hstep
    dsimp only at hstep
    split at hstep
    · obtain ⟨task, htask, hq⟩ := Option.bind_eq_some_iff.mp hstep
      cases hq
      exact ⟨htask, hp.left, List.suffix_rfl⟩
    · obtain ⟨parent, -, hrest⟩ := Option.bind_eq_some_iff.mp hstep
      obtain ⟨task, htask, hq⟩ := Option.bind_eq_some_iff.mp hrest
      cases hq
      refine ⟨htask, fun team hteam => ?_, List.suffix_rfl⟩
      split at hteam
      · exact hp.left team hteam
      · cases hteam
        exact hh.team hp.task

theorem Sound.reachable_walk (hh : h.Sound) {depth : Nat} {q : TaskPosition}
    (hp : h.Reachable w p) (hq : h.taskWalk? w scheduling depth p = some q) :
    h.Reachable w q := by
  induction depth generalizing p with
  | zero =>
    cases hq
    exact hp
  | succ depth ih =>
    obtain ⟨next, hstep, hrest⟩ := Option.bind_eq_some_iff.mp hq
    exact ih (hh.reachable_outward hp hstep) hrest

theorem Sound.reachable (hh : h.Sound) {depth : Nat}
    (hp : h.taskAt? w scheduling depth = some p) : h.Reachable w p := by
  obtain ⟨start, hstart, hwalk⟩ := Option.bind_eq_some_iff.mp hp
  exact hh.reachable_walk (reachable_innermost hstart) hwalk

/-- With `n` more regions behind it, a region that a walk comes to is the one that the worker
entered from the task after the first `n`. -/
theorem Reachable.getElem?_anchored (hp : h.Reachable w p) {region : SerialRegion}
    {rest : List SerialRegion} (hpending : p.pending = region :: rest) :
    (w.regions.reverse.filter (·.anchor = p.id))[rest.length]? = some region := by
  have hsuffix := hp.pending
  rw [hpending] at hsuffix
  rw [List.filter_reverse]
  exact getElem?_reverse_of_suffix hsuffix

/-- The levels that a walk comes to are those of the chain. -/
theorem taskWalk?_site {chain : List (TaskId × Task)}
    (hchain : h.TaskChain scheduling p.id ((p.id, p.task) :: chain)) (depth : Nat) :
    (h.taskWalk? w scheduling depth p).map TaskPosition.site =
      (p.pending.map .serial ++ .task p.task :: w.sites chain)[depth]? := by
  induction depth generalizing p chain with
  | zero => cases hpending : p.pending <;> simp [taskWalk?, TaskPosition.site, hpending]
  | succ depth ih =>
    cases hpending : p.pending with
    | cons region rest =>
      rw [taskWalk?, outward?_pending hpending]
      exact ih (p := { p with pending := rest }) hchain
    | nil =>
      cases hchain with
      | last htask hlast =>
        rw [taskWalk?, outward?_last hpending hlast]
        simp [Worker.sites]
      | @next _ outer _ _ htask houter hrest =>
        obtain ⟨task, rest, rfl, hknown⟩ := hrest.exists_cons
        obtain ⟨left, hstep⟩ := outward?_next (w := w) hpending houter hknown
        rw [taskWalk?, hstep]
        have hwalk := ih (p := ⟨outer, task, w.anchoredOn outer, left⟩) hrest
        simpa [Worker.sites] using hwalk

/-- What a query tells of a level is told by the level alone. -/
theorem payloadsAt?_eq_some {team : Team} (hteam : h.team? p.task.team = some team) :
    ∃ region, h.payloadsAt? p = some (p.site.payload, region) ∧
      h.parallelDataOf? p.site = some region.parallelData := by
  unfold payloadsAt? TaskPosition.site
  cases p.pending with
  | cons region rest => exact ⟨_, rfl, rfl⟩
  | nil => exact ⟨team.payload, by simp [hteam, TaskSite.payload], by simp [parallelDataOf?, hteam]⟩

/-- Of every level that a walk comes to the number can be told. -/
theorem Reachable.isSome_threadNumberAt? (hp : h.Reachable w p) (id : WorkerId) (team : Team) :
    (h.threadNumberAt? id w p team).isSome := by
  unfold threadNumberAt?
  split
  · rfl
  · split
    · rfl
    · cases hleft : p.left with
      | none => rfl
      | some left =>
        obtain ⟨inner, hinner⟩ := Option.isSome_iff_exists.mp (hp.left left hleft)
        simp [hinner]

section
variable {id : WorkerId} {current : TaskId} {chain : List (TaskId × Task)}

theorem taskAt?_site (hcurrent : w.current = some current)
    (hchain : h.TaskChain scheduling current chain) (depth : Nat) :
    (h.taskAt? w scheduling depth).map TaskPosition.site = (w.sites chain)[depth]? := by
  obtain ⟨task, rest, rfl, htask⟩ := hchain.exists_cons
  have hstart : h.innermostTask? w = some ⟨current, task, w.anchoredOn current, none⟩ := by
    simp [innermostTask?, hcurrent, htask]
  have hwalk := taskWalk?_site (w := w) (p := ⟨current, task, w.anchoredOn current, none⟩)
    hchain depth
  rw [taskAt?, hstart]
  simpa [Worker.sites] using hwalk

variable (hh : h.Sound) (hw : h.worker? id = some w) (hcurrent : w.current = some current)
include hh hw hcurrent

theorem taskPayloadAt?_eq (hchain : h.TaskChain scheduling current chain) (depth : Nat) :
    h.taskPayloadAt? scheduling id depth = (w.sites chain)[depth]?.map TaskSite.payload := by
  rw [← taskAt?_site hcurrent hchain depth]
  cases hp : h.taskAt? w scheduling depth with
  | none => simp [taskPayloadAt?, hw, hp]
  | some p =>
    obtain ⟨team, hteam⟩ := Option.isSome_iff_exists.mp (hh.team (hh.reachable hp).task)
    obtain ⟨region, hpayloads, -⟩ := payloadsAt?_eq_some hteam
    simp [taskPayloadAt?, hw, hp, hpayloads]

theorem taskLevel?_eq (hchain : h.TaskChain true current chain) (depth : Nat) :
    (h.taskLevel? id depth).map (fun level => (level.task, some level.parallelData)) =
      (w.sites chain)[depth]?.map fun site => (site.payload, h.parallelDataOf? site) := by
  rw [← taskAt?_site hcurrent hchain depth]
  cases hp : h.taskAt? w true depth with
  | none => simp [taskLevel?, hw, hp]
  | some p =>
    have hreachable : h.Reachable w p := hh.reachable hp
    obtain ⟨team, hteam⟩ := Option.isSome_iff_exists.mp (hh.team hreachable.task)
    obtain ⟨region, hpayloads, hdata⟩ := payloadsAt?_eq_some hteam
    obtain ⟨number, hnumber⟩ :=
      Option.isSome_iff_exists.mp (hreachable.isSome_threadNumberAt? id team)
    simp [taskLevel?, hw, hp, hpayloads, hteam, hnumber, hdata]

end

/-! ## The chain -/

theorem Sound.outer_lt (hh : h.Sound) {id outer : TaskId} {task : Task}
    (htask : h.task? id = some task) (houter : task.outer? scheduling = some outer) :
    outer.index < id.index := by
  cases scheduling with
  | false => exact hh.taskParent_lt htask outer houter
  | true =>
    rcases Option.or_eq_some_iff.mp houter with hscheduler | ⟨-, hparent⟩
    · exact hh.scheduler_lt htask outer hscheduler
    · exact hh.taskParent_lt htask outer hparent

/-- Parents and schedulers were added before their tasks. -/
theorem Sound.ownedBefore_tasks (hh : h.Sound) (scheduling : Bool) :
    OwnedBefore TaskId.index h.task? (Task.outer? · scheduling) where
  index_lt := hh.outer_lt
  isSome_owner := by
    intro id outer task htask houter
    have hlt : outer.index < id.index := hh.outer_lt htask houter
    have hknown : (h.task? id).isSome := by rw [htask]; rfl
    rw [isSome_task?_iff] at hknown ⊢
    omega

theorem length_sites_le (hh : h.Sound) {id : TaskId} {chain : List (TaskId × Task)}
    (hchain : h.TaskChain scheduling id chain) (w : Worker) :
    (w.sites chain).length ≤ h.tasks.length + w.regions.length := by
  obtain ⟨task, rest, -, htask⟩ := hchain.exists_cons
  have hlt : id.index < h.tasks.length := isSome_task?_iff.mp (by rw [htask]; rfl)
  have hlevels : (w.sites chain).length ≤ _ :=
    (hh.ownedBefore_tasks scheduling).length_flatMap_le SerialRegion.anchor w.regions
      (fun id task => by simp [Worker.anchoredOn, List.countP_eq_length_filter]) hchain
  have hregions := List.countP_le_length (p := fun r : SerialRegion => r.anchor.index ≤ id.index)
    (l := w.regions)
  omega

/-- In any hierarchy that edits have made, let a worker run a task. Outward of this task lies one
chain of tasks, by schedulers and parents or by parents alone, and a query at some depth tells of
that level of the chain, and of nothing if there are no more levels. There are at most as many
levels as tasks and regions of the worker. -/
theorem queries_tell_levels (edits : List Edit) {id : WorkerId} {w : Worker} {current : TaskId}
    (hw : (ofEdits edits).worker? id = some w) (hcurrent : w.current = some current) :
    let h := ofEdits edits
    (∀ scheduling, ∃! chain, h.TaskChain scheduling current chain) ∧
      ∃ lexical scheduled,
        h.TaskChain false current lexical ∧ h.TaskChain true current scheduled ∧
        (w.sites lexical).length ≤ h.tasks.length + w.regions.length ∧
        (w.sites scheduled).length ≤ h.tasks.length + w.regions.length ∧
        ∀ depth,
          h.lexicalTask? id depth = (w.sites lexical)[depth]?.map TaskSite.payload ∧
          h.schedulingTask? id depth = (w.sites scheduled)[depth]?.map TaskSite.payload ∧
          (h.taskLevel? id depth).map (fun level => (level.task, some level.parallelData)) =
            (w.sites scheduled)[depth]?.map (fun site =>
              (site.payload, h.parallelDataOf? site)) ∧
          (h.taskLevel? id depth).map TaskLevel.task = h.schedulingTask? id depth := by
  intro h
  have hh : h.Sound := sound_ofEdits edits
  have hknown : (h.task? current).isSome := (hh.worker hw).current current hcurrent
  have hexists (scheduling : Bool) : ∃ chain, h.TaskChain scheduling current chain :=
    (hh.ownedBefore_tasks scheduling).exists_chain current hknown
  obtain ⟨lexical, hlexical⟩ := hexists false
  obtain ⟨scheduled, hscheduled⟩ := hexists true
  refine ⟨fun scheduling => ?_, lexical, scheduled, hlexical, hscheduled,
    length_sites_le hh hlexical w, length_sites_le hh hscheduled w, fun depth => ?_⟩
  · obtain ⟨chain, hchain⟩ := hexists scheduling
    exact ⟨chain, hchain, fun other hother => hchain.unique hother⟩
  · have hlevel := taskLevel?_eq hh hw hcurrent hscheduled depth
    have hpayload := taskPayloadAt?_eq hh hw hcurrent hscheduled depth
    refine ⟨taskPayloadAt?_eq hh hw hcurrent hlexical depth, hpayload, hlevel, ?_⟩
    -- the payload is one half of what is told of a level
    have htask := congrArg (Option.map Prod.fst) hlevel
    rw [Option.map_map, Option.map_map] at htask
    exact htask.trans hpayload.symm

/-- A worker has entered regions from two tasks in turn, and runs the second one, which the first
one has scheduled. -/
theorem queries_tell_levels_in_turn :
    let task (kind : TaskKind) (scheduler : Option TaskId) (data : UInt64) : Task :=
      { team := ⟨0⟩, type := { kind }, parent := none, schedulingParent := scheduler
        payload := { data } }
    let edits : List Edit := [.addWorker, .addTeam none 1 0 0 {}, .addTask (task .implicit none 1),
      .addTask (task .explicit (some ⟨0⟩) 2), .assign ⟨0⟩ ⟨0⟩ 0, .enterSerial ⟨0⟩ 0 0,
      .setCurrentPayload ⟨0⟩ { data := 3 }, .assign ⟨0⟩ ⟨1⟩ 0, .enterSerial ⟨0⟩ 0 0,
      .setCurrentPayload ⟨0⟩ { data := 4 }, .assign ⟨0⟩ ⟨0⟩ 0, .enterSerial ⟨0⟩ 0 0,
      .setCurrentPayload ⟨0⟩ { data := 5 }, .assign ⟨0⟩ ⟨1⟩ 0]
    let region (anchor : Nat) (data : UInt64) : SerialRegion :=
      { team := ⟨0⟩, anchor := ⟨anchor⟩, teamPayload := {}, taskPayload := { data } }
    let w : Worker := { current := some ⟨1⟩, regions := [region 0 5, region 1 4, region 0 3] }
    (ofEdits edits).worker? ⟨0⟩ = some w ∧ w.current = some ⟨1⟩ ∧
      (List.range 6).map (fun depth => ((ofEdits edits).schedulingTask? ⟨0⟩ depth).map
        TaskPayload.data) = [some 4, some 2, some 5, some 3, some 1, none] := by
  intro task edits region w
  have hw : (ofEdits edits).worker? ⟨0⟩ = some w := by decide +kernel
  have hchain : (ofEdits edits).TaskChain true ⟨1⟩
      [(⟨1⟩, task .explicit (some ⟨0⟩) 2), (⟨0⟩, task .implicit none 1)] :=
    .next (by decide +kernel) (by decide) (.last (by decide +kernel) (by decide))
  obtain ⟨-, lexical, scheduled, -, hscheduled, -, -, htold⟩ := queries_tell_levels edits hw rfl
  cases hchain.unique hscheduled
  refine ⟨hw, rfl, ?_⟩
  simp only [fun depth => (htold depth).2.1]
  decide +kernel

end Hierarchy
end DeviceTrace
