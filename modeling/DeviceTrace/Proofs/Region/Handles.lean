import DeviceTrace.Proofs.Region.Edits

/-!
# Handles stay good

Whatever is done to a hierarchy, with whatever handles, each handle that it stores leads somewhere,
and those of parents and schedulers to what was added before. A handle that was given out is new,
and names the same team, task or worker from then on. An edit that is refused has changed nothing,
also if some of its handles were known.
-/

namespace DeviceTrace

/-- What stays of a team for good. Its slots and its data may change. -/
structure Team.Same (team later : Team) : Prop where
  parent : later.parent = team.parent
  masterNumber : later.masterNumber = team.masterNumber
  serialized : later.serialized = team.serialized
  size : later.slots.length = team.slots.length
  returnAddress : later.payload.returnAddress = team.payload.returnAddress

namespace Team.Same

variable {team later last : Team}

theorem refl (team : Team) : team.Same team := ⟨rfl, rfl, rfl, rfl, rfl⟩

theorem trans (h : team.Same later) (h' : later.Same last) : team.Same last where
  parent := h'.parent.trans h.parent
  masterNumber := h'.masterNumber.trans h.masterNumber
  serialized := h'.serialized.trans h.serialized
  size := h'.size.trans h.size
  returnAddress := h'.returnAddress.trans h.returnAddress

end Team.Same

namespace Hierarchy

/-- The answer to the edit is that it cannot be done. -/
def refuses (h : Hierarchy) : Edit → Bool
  | .addTeam parent size masterNumber serialized payload =>
    (h.addTeam parent size masterNumber serialized payload).1.isNone
  | .addTask task => (h.addTask task).1.isNone
  | .addWorker => false
  | .setSlot team slot worker => !(h.setSlot team slot worker).1
  | .assign worker task number => !(h.assign worker task number).1
  | .enterSerial worker parallelData returnAddress =>
    (h.enterSerial worker parallelData returnAddress).1.isNone
  | .leaveSerial worker => (h.leaveSerial worker).1.isNone
  | .setSerialTask handle payload => !(h.setSerialTask handle payload).1
  | .setCurrentPayload worker payload => !(h.setCurrentPayload worker payload).1
  | .setRegionData worker parallelData => !(h.setRegionData worker parallelData).1
  | .noteEntry worker address flags => (h.noteEntry worker address flags).1.isNone

/-- The worker that an edit is made through. -/
def Edit.worker? : Edit → Option WorkerId
  | .assign worker _ _ | .enterSerial worker _ _ | .leaveSerial worker
  | .setCurrentPayload worker _ | .setRegionData worker _ | .noteEntry worker _ _ => some worker
  | .setSerialTask handle _ => some handle.worker
  | .addTeam .. | .addTask _ | .addWorker | .setSlot .. => none

/-- Every handle that is stored is known, and those of parents and schedulers come earlier. A serial
region lies in the team of the task that it was entered from. -/
structure Closed (h : Hierarchy) : Prop where
  parent : ∀ {id team}, h.team? id = some team → ∀ parent ∈ team.parent,
    parent.index < id.index ∧ (h.team? parent).isSome
  team : ∀ {id task}, h.task? id = some task → (h.team? task.team).isSome
  taskParent : ∀ {id task}, h.task? id = some task → ∀ parent ∈ task.parent,
    parent.index < id.index ∧ (h.task? parent).isSome
  scheduler : ∀ {id task}, h.task? id = some task → ∀ scheduler ∈ task.schedulingParent,
    scheduler.index < id.index ∧ (h.task? scheduler).isSome
  current : ∀ {id w}, h.worker? id = some w → ∀ current ∈ w.current, (h.task? current).isSome
  region : ∀ {id w}, h.worker? id = some w → ∀ region ∈ w.regions,
    (h.team? region.team).isSome ∧
      ∃ task, h.task? region.anchor = some task ∧ task.team = region.team

/-- Each known handle names the same later, and a worker is as it was unless it was `touched`. -/
structure Names (touched : WorkerId → Prop) (h later : Hierarchy) : Prop where
  team : ∀ {id team}, h.team? id = some team →
    ∃ team', later.team? id = some team' ∧ team.Same team'
  task : ∀ {id task}, h.task? id = some task →
    ∃ payload, later.task? id = some { task with payload }
  worker : ∀ {id w}, h.worker? id = some w →
    ∃ w', later.worker? id = some w' ∧ (¬touched id → w' = w)

variable {h h' : Hierarchy}

/-! ## What is stored -/

theorem isSome_team?_of_lt {id earlier : TeamId} {team : Team} (hteam : h.team? id = some team)
    (hlt : earlier.index < id.index) : (h.team? earlier).isSome :=
  isSome_team?_iff.mpr (Nat.lt_trans hlt (List.getElem?_eq_some_iff.mp hteam).1)

theorem isSome_task?_of_lt {id earlier : TaskId} {task : Task} (htask : h.task? id = some task)
    (hlt : earlier.index < id.index) : (h.task? earlier).isSome :=
  isSome_task?_iff.mpr (Nat.lt_trans hlt (List.getElem?_eq_some_iff.mp htask).1)

theorem Sound.closed (hh : h.Sound) : h.Closed where
  parent := by
    intro id team hteam parent hparent
    have hlt := hh.parent_lt hteam parent hparent
    exact ⟨hlt, isSome_team?_of_lt hteam hlt⟩
  team := hh.team
  taskParent := by
    intro id task htask parent hparent
    have hlt := hh.taskParent_lt htask parent hparent
    exact ⟨hlt, isSome_task?_of_lt htask hlt⟩
  scheduler := by
    intro id task htask scheduler hscheduler
    have hlt := hh.scheduler_lt htask scheduler hscheduler
    exact ⟨hlt, isSome_task?_of_lt htask hlt⟩
  current := fun hw => (hh.worker hw).current
  region := by
    intro id w hw region hregion
    obtain ⟨task, htask, hteam⟩ := Option.map_eq_some_iff.mp ((hh.worker hw).regions region hregion)
    exact ⟨hteam ▸ hh.team htask, task, htask, hteam⟩

/-! ## What handles name -/

section
variable {touched : WorkerId → Prop}

namespace Names

theorem refl (touched : WorkerId → Prop) (h : Hierarchy) : Names touched h h where
  team := fun {_ team} hteam => ⟨team, hteam, .refl team⟩
  task := fun {_ task} htask => ⟨task.payload, htask⟩
  worker := fun {_ w} hw => ⟨w, hw, fun _ => rfl⟩

theorem trans {h'' : Hierarchy} (hfirst : Names touched h h') (hsecond : Names touched h' h'') :
    Names touched h h'' where
  team := by
    intro id team hteam
    obtain ⟨team', hteam', hsame⟩ := hfirst.team hteam
    obtain ⟨team'', hteam'', hsame'⟩ := hsecond.team hteam'
    exact ⟨team'', hteam'', hsame.trans hsame'⟩
  task := by
    intro id task htask
    obtain ⟨payload, htask'⟩ := hfirst.task htask
    obtain ⟨payload', htask''⟩ := hsecond.task htask'
    exact ⟨payload', htask''⟩
  worker := by
    intro id w hw
    obtain ⟨w', hw', hsame⟩ := hfirst.worker hw
    obtain ⟨w'', hw'', hsame'⟩ := hsecond.worker hw'
    exact ⟨w'', hw'', fun hid => (hsame' hid).trans (hsame hid)⟩

theorem mono {more : WorkerId → Prop} (hnames : Names touched h h')
    (hmore : ∀ id, touched id → more id) : Names more h h' where
  team := hnames.team
  task := hnames.task
  worker := by
    intro id w hw
    obtain ⟨w', hw', hsame⟩ := hnames.worker hw
    exact ⟨w', hw', fun hid => hsame fun htouched => hid (hmore id htouched)⟩

end Names

theorem names_updateTeam {id : TeamId} {old new : Team} (hold : h.team? id = some old)
    (hsame : old.Same new) : Names touched h (h.updateTeam id new) where
  team := by
    intro other team hteam
    rw [team?_updateTeam hold]
    split
    · rename_i hid
      subst hid
      cases hold.symm.trans hteam
      exact ⟨new, rfl, hsame⟩
    · exact ⟨team, hteam, .refl team⟩
  task := (Names.refl touched h).task
  worker := (Names.refl touched h).worker

theorem names_updateTask {id : TaskId} {old : Task} (hold : h.task? id = some old)
    (payload : TaskPayload) : Names touched h (h.updateTask id { old with payload }) where
  team := (Names.refl touched h).team
  task := by
    intro other task htask
    rw [task?_updateTask hold]
    split
    · rename_i hid
      subst hid
      cases hold.symm.trans htask
      exact ⟨payload, rfl⟩
    · exact ⟨task.payload, htask⟩
  worker := (Names.refl touched h).worker

theorem names_updateWorker {id : WorkerId} {old : Worker} (hold : h.worker? id = some old)
    (new : Worker) (htouched : touched id) : Names touched h (h.updateWorker id new) where
  team := (Names.refl touched h).team
  task := (Names.refl touched h).task
  worker := by
    intro other w hw
    rw [worker?_updateWorker hold]
    split
    · rename_i hid
      exact ⟨new, rfl, fun hother => absurd (hid ▸ htouched) hother⟩
    · exact ⟨w, hw, fun _ => rfl⟩

/-- What an arena holds stays in its place when something is added. -/
theorem getElem?_concat_of_some {α : Type} {l : List α} {a : α} {i : Nat} (ha : l[i]? = some a)
    (last : α) : (l ++ [last])[i]? = some a :=
  (List.getElem?_append_left (List.getElem?_eq_some_iff.mp ha).1).trans ha

theorem names_addTeam (parent : Option TeamId) (size masterNumber : Nat) (serialized : UInt32)
    (payload : TeamPayload) :
    Names touched h (h.addTeam parent size masterNumber serialized payload).2 := by
  unfold addTeam
  split
  · exact ⟨fun {_ team} hteam => ⟨team, getElem?_concat_of_some hteam _, .refl team⟩,
      (Names.refl touched h).task, (Names.refl touched h).worker⟩
  · exact .refl _ h

theorem names_addTask (task : Task) : Names touched h (h.addTask task).2 := by
  unfold addTask
  split
  · exact ⟨(Names.refl touched h).team,
      fun {_ known} hknown => ⟨known.payload, getElem?_concat_of_some hknown _⟩,
      (Names.refl touched h).worker⟩
  · exact .refl _ h

theorem names_addWorker : Names touched h h.addWorker.2 :=
  ⟨(Names.refl touched h).team, (Names.refl touched h).task,
    fun {_ w} hw => ⟨w, getElem?_concat_of_some hw _, fun _ => rfl⟩⟩

theorem names_setSlot (id : TeamId) (slot : Nat) (worker : Option WorkerId) :
    Names touched h (h.setSlot id slot worker).2 := by
  unfold setSlot
  split
  · rename_i team hteam
    split
    · exact names_updateTeam hteam ⟨rfl, rfl, rfl, List.length_set, rfl⟩
    · exact .refl _ h
  · exact .refl _ h

theorem names_assign (id : WorkerId) (task : TaskId) (number : Nat) (htouched : touched id) :
    Names touched h (h.assign id task number).2 := by
  unfold assign
  split
  · rename_i hw
    exact names_updateWorker hw _ htouched
  · exact .refl _ h

theorem names_enterSerial (id : WorkerId) (parallelData returnAddress : UInt64)
    (htouched : touched id) : Names touched h (h.enterSerial id parallelData returnAddress).2 := by
  unfold enterSerial
  split
  · exact .refl _ h
  · rename_i w hw
    split
    · exact .refl _ h
    · exact names_updateWorker hw _ htouched

theorem names_leaveSerial (id : WorkerId) (htouched : touched id) :
    Names touched h (h.leaveSerial id).2 := by
  unfold leaveSerial
  split
  · exact .refl _ h
  · rename_i w hw
    split
    · exact .refl _ h
    · exact names_updateWorker hw _ htouched

theorem names_setSerialTask (handle : SerialHandle) (payload : TaskPayload)
    (htouched : touched handle.worker) : Names touched h (h.setSerialTask handle payload).2 := by
  unfold setSerialTask
  split
  · exact .refl _ h
  · rename_i w hw
    split
    · exact .refl _ h
    · exact names_updateWorker hw _ htouched

theorem names_setCurrentPayload (id : WorkerId) (payload : TaskPayload) (htouched : touched id) :
    Names touched h (h.setCurrentPayload id payload).2 := by
  unfold setCurrentPayload
  split
  · exact .refl _ h
  · rename_i w hw
    split
    · exact names_updateWorker hw _ htouched
    · split
      · rename_i current task hcurrent
        obtain ⟨_, -, hmap⟩ := Option.bind_eq_some_iff.mp hcurrent
        obtain ⟨_, htask, heq⟩ := Option.map_eq_some_iff.mp hmap
        cases heq
        exact names_updateTask htask payload
      · exact .refl _ h

theorem names_setRegionData (id : WorkerId) (parallelData : UInt64) (htouched : touched id) :
    Names touched h (h.setRegionData id parallelData).2 := by
  unfold setRegionData
  split
  · exact .refl _ h
  · rename_i w hw
    split
    · exact names_updateWorker hw _ htouched
    · split
      · exact .refl _ h
      · split
        · exact .refl _ h
        · rename_i team hteam
          exact names_updateTeam hteam ⟨rfl, rfl, rfl, rfl, rfl⟩

theorem names_noteEntry (id : WorkerId) (address : UInt64) (flags : UInt32)
    (htouched : touched id) : Names touched h (h.noteEntry id address flags).2 := by
  unfold noteEntry
  split
  · exact .refl _ h
  · have hwritten (payload : TaskPayload) :
        Names touched h (h.setCurrentPayload id payload).2 :=
      names_setCurrentPayload id payload htouched
    dsimp only
    split
    · exact hwritten _
    · rename_i w hw
      exact (hwritten _).trans (names_updateWorker hw _ htouched)

end

theorem names_edit (h : Hierarchy) (e : Edit) : Names (e.worker? = some ·) h (h.edit e) := by
  cases e with
  | addTeam parent size masterNumber serialized payload =>
    exact names_addTeam parent size masterNumber serialized payload
  | addTask task => exact names_addTask task
  | addWorker => exact names_addWorker
  | setSlot team slot worker => exact names_setSlot team slot worker
  | assign worker task number => exact names_assign worker task number rfl
  | enterSerial worker parallelData returnAddress =>
    exact names_enterSerial worker parallelData returnAddress rfl
  | leaveSerial worker => exact names_leaveSerial worker rfl
  | setSerialTask handle payload => exact names_setSerialTask handle payload rfl
  | setCurrentPayload worker payload => exact names_setCurrentPayload worker payload rfl
  | setRegionData worker parallelData => exact names_setRegionData worker parallelData rfl
  | noteEntry worker address flags => exact names_noteEntry worker address flags rfl

theorem names_edits (h : Hierarchy) (edits : List Edit) :
    Names (fun id => ∃ e ∈ edits, e.worker? = some id) h (edits.foldl edit h) := by
  induction edits generalizing h with
  | nil => exact .refl _ h
  | cons e edits ih =>
    refine ((h.names_edit e).mono ?_).trans ((ih (h.edit e)).mono ?_)
    · exact fun id hid => ⟨e, List.mem_cons_self, hid⟩
    · exact fun id ⟨later, hmem, hid⟩ => ⟨later, List.mem_cons_of_mem e hmem, hid⟩

/-! ## Refused edits -/

theorem edit_of_refuses {e : Edit} (he : h.refuses e = true) : h.edit e = h := by
  revert he
  cases e with
  | addTeam parent size masterNumber serialized payload =>
    simp only [refuses, edit, addTeam]
    split <;> simp
  | addTask task =>
    simp only [refuses, edit, addTask]
    split <;> simp
  | addWorker => simp [refuses]
  | setSlot team slot worker =>
    simp only [refuses, edit, setSlot]
    repeat' split
    all_goals simp
  | assign worker task number =>
    simp only [refuses, edit, assign]
    split <;> simp
  | enterSerial worker parallelData returnAddress =>
    simp only [refuses, edit, enterSerial]
    repeat' split
    all_goals simp
  | leaveSerial worker =>
    simp only [refuses, edit, leaveSerial]
    repeat' split
    all_goals simp
  | setSerialTask handle payload =>
    simp only [refuses, edit, setSerialTask]
    repeat' split
    all_goals simp
  | setCurrentPayload worker payload =>
    simp only [refuses, edit, setCurrentPayload]
    repeat' split
    all_goals simp
  | setRegionData worker parallelData =>
    simp only [refuses, edit, setRegionData]
    repeat' split
    all_goals simp
  | noteEntry worker address flags =>
    simp only [refuses, edit, noteEntry]
    split
    · simp
    · rename_i payload hpayload
      split
      · -- the worker is known, so its state is answered
        rename_i hnone
        obtain ⟨w, hw, -⟩ := Option.bind_eq_some_iff.mp hpayload
        obtain ⟨w', hw', -⟩ := (h.names_edit (.setCurrentPayload worker { payload with
          frame := { payload.frame with enter := address, enterFlags := flags } })).worker hw
        cases hnone.symm.trans hw'
      · simp

/-! ## Handles that are given out -/

theorem addTeam_gives {parent : Option TeamId} {size masterNumber : Nat} {serialized : UInt32}
    {payload : TeamPayload} {id : TeamId}
    (hid : (h.addTeam parent size masterNumber serialized payload).1 = some id) :
    h.team? id = none ∧ (h.addTeam parent size masterNumber serialized payload).2.team? id =
      some { parent, masterNumber, serialized, slots := List.replicate size none, payload } := by
  unfold addTeam at hid ⊢
  split at hid
  · rename_i hparent
    cases hid
    rw [if_pos hparent]
    exact ⟨List.getElem?_eq_none (Nat.le_refl _), List.getElem?_concat_length⟩
  · cases hid

theorem addTask_gives {task : Task} {id : TaskId} (hid : (h.addTask task).1 = some id) :
    h.task? id = none ∧ (h.addTask task).2.task? id = some task := by
  unfold addTask at hid ⊢
  split at hid
  · rename_i hknown
    cases hid
    rw [if_pos hknown]
    exact ⟨List.getElem?_eq_none (Nat.le_refl _), List.getElem?_concat_length⟩
  · cases hid

theorem addWorker_gives (h : Hierarchy) :
    h.worker? h.addWorker.1 = none ∧ h.addWorker.2.worker? h.addWorker.1 = some {} :=
  ⟨List.getElem?_eq_none (Nat.le_refl _), List.getElem?_concat_length⟩

/-- In any hierarchy that edits have made, every stored handle is known, those of parents and
schedulers come before their owners, and a serial region lies in the team of the task that it was
entered from. A refused edit changes nothing. A handle that is given out has not been known and
leads to what was added. Whatever is done later, it names the same team, task or worker, and the
worker is as it was if nothing has been done through its handle. -/
theorem handles_name_the_same (edits : List Edit) :
    let h := ofEdits edits
    h.Closed ∧
      (∀ e, h.refuses e = true → h.edit e = h) ∧
      (∀ later : List Edit, Names (fun id => ∃ e ∈ later, e.worker? = some id) h
        (later.foldl edit h)) ∧
      (∀ parent size masterNumber serialized payload id,
        (h.addTeam parent size masterNumber serialized payload).1 = some id →
        h.team? id = none ∧ (h.addTeam parent size masterNumber serialized payload).2.team? id =
          some { parent, masterNumber, serialized, slots := List.replicate size none, payload }) ∧
      (∀ task id, (h.addTask task).1 = some id →
        h.task? id = none ∧ (h.addTask task).2.task? id = some task) ∧
      h.worker? h.addWorker.1 = none ∧ h.addWorker.2.worker? h.addWorker.1 = some {} :=
  ⟨(sound_ofEdits edits).closed, fun _ => edit_of_refuses, names_edits _,
    fun _ _ _ _ _ _ => addTeam_gives, fun _ _ => addTask_gives, addWorker_gives _⟩

/-! A worker in a serial region. A task of a known team with an unknown parent is refused, and edits
through the handle of another worker leave this one alone. -/

theorem handles_name_the_same_in_serial_region :
    let task : Task := { team := ⟨0⟩, type := { kind := .implicit }, parent := none,
                         schedulingParent := none, payload := {} }
    let edits : List Edit := [.addWorker, .addWorker, .addTeam none 2 0 0 {}, .addTask task,
      .assign ⟨0⟩ ⟨0⟩ 0, .enterSerial ⟨0⟩ 7 0]
    let w : Worker := { current := some ⟨0⟩,
                        regions := [{ team := ⟨0⟩, anchor := ⟨0⟩,
                                      teamPayload := { parallelData := 7 } }] }
    let orphan : Edit := .addTask { task with parent := some ⟨7⟩ }
    let later : List Edit := [orphan, .assign ⟨1⟩ ⟨0⟩ 1, .setRegionData ⟨1⟩ 9, .leaveSerial ⟨1⟩]
    (ofEdits edits).refuses orphan = true ∧ (ofEdits edits).edit orphan = ofEdits edits ∧
      (ofEdits edits).worker? ⟨0⟩ = some w ∧
      (later.foldl edit (ofEdits edits)).worker? ⟨0⟩ = some w := by
  intro task edits w orphan later
  have hrefuses : (ofEdits edits).refuses orphan = true := by decide +kernel
  have hw : (ofEdits edits).worker? ⟨0⟩ = some w := by decide +kernel
  obtain ⟨-, hrefused, hlater, -⟩ := handles_name_the_same edits
  obtain ⟨w', hw', hsame⟩ := (hlater later).worker hw
  refine ⟨hrefuses, hrefused _ hrefuses, hw, hw'.trans (congrArg some (hsame ?_))⟩
  decide

end Hierarchy
end DeviceTrace
