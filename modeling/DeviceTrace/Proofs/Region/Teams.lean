import DeviceTrace.Proofs.Region.Levels

/-!
# The parallel regions around a worker

Outward from the team of a worker's current task lies a chain of teams, each the parent of the one
before it, and with each of them, on the inside, the serial regions that the worker entered in it.
Where `Levels` follows the tasks, this walk follows the teams alone. It passes these regions one
after the other and ends behind the last team, which there is because parents were added first.
-/

namespace DeviceTrace

/-- All teams from a team outward. -/
abbrev Hierarchy.TeamChain (h : Hierarchy) : TeamId → List (TeamId × Team) → Prop :=
  OwnerChain h.team? Team.parent

/-- A parallel region is a serial one or a team. -/
inductive RegionSite
  | serial (region : SerialRegion)
  | team (team : Team)
  deriving DecidableEq, Repr

/-- The data of the region and the number of workers that it has room for. -/
def RegionSite.level : RegionSite → RegionLevel
  | .serial region => ⟨region.teamPayload.parallelData, 1⟩
  | .team t => ⟨t.payload.parallelData, t.slots.length⟩

/-- The regions of a chain: with each team the serial regions that the worker entered in it, the
latest first, and then the team. -/
def Worker.regionSites (w : Worker) (chain : List (TeamId × Team)) : List RegionSite :=
  chain.flatMap fun (id, team) => (w.enteredIn id).map .serial ++ [.team team]

def RegionPosition.site (p : RegionPosition) : RegionSite :=
  match p.pending with
  | region :: _ => .serial region
  | [] => .team p.team

theorem RegionPosition.level_site (p : RegionPosition) : p.site.level = p.level := by
  unfold site level
  cases p.pending with
  | nil | cons _ _ => rfl

namespace Hierarchy

variable {h : Hierarchy} {w : Worker} {p : RegionPosition}

/-! ## The walk -/

theorem regionOutward?_pending {region : SerialRegion} {rest : List SerialRegion}
    (hpending : p.pending = region :: rest) :
    h.regionOutward? w p = some { p with pending := rest } := by
  simp [regionOutward?, hpending]

theorem regionOutward?_last (hpending : p.pending = []) (hlast : p.team.parent = none) :
    h.regionOutward? w p = none := by
  simp [regionOutward?, hpending, hlast]

theorem regionOutward?_next {outer : TeamId} {team : Team} (hpending : p.pending = [])
    (houter : p.team.parent = some outer) (hteam : h.team? outer = some team) :
    h.regionOutward? w p = some ⟨team, w.enteredIn outer⟩ := by
  simp [regionOutward?, hpending, houter, regionOfTeam?, hteam]

/-- A position that a walk can come to: the team is known under this name, and some of the regions
that the worker entered in it are still to be passed. -/
structure ReachableIn (h : Hierarchy) (w : Worker) (id : TeamId) (p : RegionPosition) : Prop where
  team : h.team? id = some p.team
  pending : p.pending <:+ w.enteredIn id

theorem reachableIn_of_team {id : TeamId} (hp : h.regionOfTeam? w id = some p) :
    h.ReachableIn w id p := by
  obtain ⟨team, hteam, rfl⟩ := Option.map_eq_some_iff.mp hp
  exact ⟨hteam, List.suffix_rfl⟩

theorem ReachableIn.outward {id : TeamId} {q : RegionPosition} (hp : h.ReachableIn w id p)
    (hstep : h.regionOutward? w p = some q) : ∃ outer, h.ReachableIn w outer q := by
  unfold regionOutward? at hstep
  cases hpending : p.pending with
  | cons region rest =>
    rw [hpending] at hstep
    cases hstep
    have hsuffix := hp.pending
    rw [hpending] at hsuffix
    exact ⟨id, hp.team, (List.suffix_cons region rest).trans hsuffix⟩
  | nil =>
    rw [hpending] at hstep
    obtain ⟨outer, -, hq⟩ := Option.bind_eq_some_iff.mp hstep
    exact ⟨outer, reachableIn_of_team hq⟩

theorem ReachableIn.walk {id : TeamId} {q : RegionPosition} {depth : Nat}
    (hp : h.ReachableIn w id p) (hq : h.regionWalk? w depth p = some q) :
    ∃ outer, h.ReachableIn w outer q := by
  induction depth generalizing id p with
  | zero =>
    cases hq
    exact ⟨id, hp⟩
  | succ depth ih =>
    obtain ⟨next, hstep, hrest⟩ := Option.bind_eq_some_iff.mp hq
    obtain ⟨outer, hnext⟩ := hp.outward hstep
    exact ih hnext hrest

/-- With `n` more regions behind it, a serial region that a walk comes to is the one that the worker
entered in the team after the first `n`. -/
theorem getElem?_entered {depth : Nat}
    (hp : (h.innermostRegion? w).bind (h.regionWalk? w depth) = some p) :
    ∃ id, h.team? id = some p.team ∧ ∀ region rest, p.pending = region :: rest →
      (w.regions.reverse.filter (·.team = id))[rest.length]? = some region := by
  obtain ⟨start, hstart, hwalk⟩ := Option.bind_eq_some_iff.mp hp
  obtain ⟨task, -, hteam⟩ := Option.bind_eq_some_iff.mp hstart
  obtain ⟨id, hid⟩ := (reachableIn_of_team hteam).walk hwalk
  refine ⟨id, hid.team, fun region rest hpending => ?_⟩
  have hsuffix := hid.pending
  rw [hpending] at hsuffix
  rw [List.filter_reverse]
  exact getElem?_reverse_of_suffix hsuffix

/-- The regions that a walk comes to are those of the chain. -/
theorem regionWalk?_site {id : TeamId} {chain : List (TeamId × Team)}
    (hchain : h.TeamChain id ((id, p.team) :: chain)) (depth : Nat) :
    (h.regionWalk? w depth p).map RegionPosition.site =
      (p.pending.map .serial ++ .team p.team :: w.regionSites chain)[depth]? := by
  induction depth generalizing p id chain with
  | zero => cases hpending : p.pending <;> simp [regionWalk?, RegionPosition.site, hpending]
  | succ depth ih =>
    cases hpending : p.pending with
    | cons region rest =>
      rw [regionWalk?, regionOutward?_pending hpending]
      exact ih (p := { p with pending := rest }) hchain
    | nil =>
      cases hchain with
      | last hteam hlast =>
        rw [regionWalk?, regionOutward?_last hpending hlast]
        simp [Worker.regionSites]
      | @next _ outer _ _ hteam houter hrest =>
        obtain ⟨team, rest, rfl, hknown⟩ := hrest.exists_cons
        rw [regionWalk?, regionOutward?_next hpending houter hknown]
        have hwalk := ih (p := ⟨team, w.enteredIn outer⟩) hrest
        simpa [Worker.regionSites] using hwalk

theorem regionLevel?_eq {id : WorkerId} {current : TaskId} {task : Task}
    {chain : List (TeamId × Team)} (hw : h.worker? id = some w)
    (hcurrent : w.current = some current) (htask : h.task? current = some task)
    (hchain : h.TeamChain task.team chain) (depth : Nat) :
    h.regionLevel? id depth = (w.regionSites chain)[depth]?.map RegionSite.level := by
  obtain ⟨team, rest, rfl, hteam⟩ := hchain.exists_cons
  have hstart : h.innermostRegion? w = some ⟨team, w.enteredIn task.team⟩ := by
    simp [innermostRegion?, regionOfTeam?, hcurrent, htask, hteam]
  have hwalk := regionWalk?_site (w := w) (p := ⟨team, w.enteredIn task.team⟩) hchain depth
  have hsites : w.regionSites ((task.team, team) :: rest) =
      (w.enteredIn task.team).map .serial ++ .team team :: w.regionSites rest := by
    simp [Worker.regionSites]
  rw [hsites, ← hwalk, Option.map_map]
  cases hp : h.regionWalk? w depth ⟨team, w.enteredIn task.team⟩ with
  | none => simp [regionLevel?, hw, hstart, hp]
  | some p => simp [regionLevel?, hw, hstart, hp, RegionPosition.level_site]

/-! ## The chain -/

/-- Parents were added before their teams. -/
theorem Sound.ownedBefore_teams (hh : h.Sound) :
    OwnedBefore TeamId.index h.team? Team.parent where
  index_lt hteam houter := hh.parent_lt hteam _ houter
  isSome_owner := by
    intro id outer team hteam houter
    have hlt : outer.index < id.index := hh.parent_lt hteam outer houter
    have hknown : (h.team? id).isSome := by rw [hteam]; rfl
    rw [isSome_team?_iff] at hknown ⊢
    omega

theorem length_regionSites_le (hh : h.Sound) {id : TeamId} {chain : List (TeamId × Team)}
    (hchain : h.TeamChain id chain) (w : Worker) :
    (w.regionSites chain).length ≤ h.teams.length + w.regions.length := by
  obtain ⟨team, rest, -, hteam⟩ := hchain.exists_cons
  have hlt : id.index < h.teams.length := isSome_team?_iff.mp (by rw [hteam]; rfl)
  have hlevels : (w.regionSites chain).length ≤ _ :=
    hh.ownedBefore_teams.length_flatMap_le SerialRegion.team w.regions
      (fun id team => by simp [Worker.enteredIn, List.countP_eq_length_filter]) hchain
  have hregions := List.countP_le_length (p := fun r : SerialRegion => r.team.index ≤ id.index)
    (l := w.regions)
  omega

/-- In any hierarchy that edits have made, let a worker run a task. Outward of the team of this task
lies one chain of teams, and a query of parallel regions at some depth tells of that region of the
chain, and of nothing if there are no more regions. There are at most as many regions as teams and
serial regions of the worker. -/
theorem queries_tell_regions (edits : List Edit) {id : WorkerId} {w : Worker} {current : TaskId}
    (hw : (ofEdits edits).worker? id = some w) (hcurrent : w.current = some current) :
    let h := ofEdits edits
    ∃ task chain, h.task? current = some task ∧ h.TeamChain task.team chain ∧
      (∀ other, h.TeamChain task.team other → other = chain) ∧
      (w.regionSites chain).length ≤ h.teams.length + w.regions.length ∧
      ∀ depth, h.regionLevel? id depth = (w.regionSites chain)[depth]?.map RegionSite.level := by
  intro h
  have hh : h.Sound := sound_ofEdits edits
  obtain ⟨task, htask⟩ := Option.isSome_iff_exists.mp ((hh.worker hw).current current hcurrent)
  obtain ⟨chain, hchain⟩ := hh.ownedBefore_teams.exists_chain task.team (hh.team htask)
  exact ⟨task, chain, htask, hchain, fun _ hother => hchain.unique hother,
    length_regionSites_le hh hchain w, regionLevel?_eq hw hcurrent htask hchain⟩

/-- A worker has entered regions in an outer and an inner team in turn, and runs a task of the inner
one. -/
theorem queries_tell_regions_in_turn :
    let task (team : Nat) : Task :=
      { team := ⟨team⟩, type := { kind := .implicit }, parent := none, schedulingParent := none
        payload := {} }
    let edits : List Edit := [.addWorker, .addTeam none 4 0 0 { parallelData := 1 },
      .addTeam (some ⟨0⟩) 3 0 0 { parallelData := 2 }, .addTask (task 0), .addTask (task 1),
      .assign ⟨0⟩ ⟨0⟩ 0, .enterSerial ⟨0⟩ 5 0, .assign ⟨0⟩ ⟨1⟩ 0, .enterSerial ⟨0⟩ 6 0,
      .assign ⟨0⟩ ⟨0⟩ 0, .enterSerial ⟨0⟩ 7 0, .assign ⟨0⟩ ⟨1⟩ 0]
    let region (team : Nat) (parallelData : UInt64) : SerialRegion :=
      { team := ⟨team⟩, anchor := ⟨team⟩, teamPayload := { parallelData } }
    let w : Worker := { current := some ⟨1⟩, regions := [region 0 7, region 1 6, region 0 5] }
    (ofEdits edits).worker? ⟨0⟩ = some w ∧ w.current = some ⟨1⟩ ∧
      (List.range 6).map ((ofEdits edits).regionLevel? ⟨0⟩) =
        [some ⟨6, 1⟩, some ⟨2, 3⟩, some ⟨7, 1⟩, some ⟨5, 1⟩, some ⟨1, 4⟩, none] := by
  intro task edits region w
  have hw : (ofEdits edits).worker? ⟨0⟩ = some w := by decide +kernel
  have htask : (ofEdits edits).task? ⟨1⟩ = some (task 1) := by decide +kernel
  obtain ⟨known, chain, hknown, -, hunique, -, htold⟩ := queries_tell_regions edits hw rfl
  cases htask.symm.trans hknown
  have hchain : (ofEdits edits).TeamChain ⟨1⟩
      [(⟨1⟩, { parent := some ⟨0⟩, masterNumber := 0, serialized := 0
               slots := [none, none, none], payload := { parallelData := 2 } }),
        (⟨0⟩, { parent := none, masterNumber := 0, serialized := 0
                slots := [none, none, none, none], payload := { parallelData := 1 } })] :=
    .next (by decide +kernel) rfl (.last (by decide +kernel) rfl)
  cases hunique _ hchain
  refine ⟨hw, rfl, ?_⟩
  rw [List.map_congr_left fun depth _ => htold depth]
  decide +kernel

end Hierarchy
end DeviceTrace
