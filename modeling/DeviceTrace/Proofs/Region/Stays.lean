import DeviceTrace.Proofs.Region.Entering

/-!
# A stay in a serial region

Between entering a serial region and leaving it a worker may enter and leave further regions and
write to whatever it is in. As it runs the same task all the while, its latest region is what it is
in, so every write goes to a region that the stay has opened. After the stay the hierarchy is what
it was before, except for the state of the worker.
-/

namespace DeviceTrace

/-- What a worker does during a stay. -/
inductive SerialStep
  | enter (parallelData returnAddress : UInt64)
  | leave
  | setPayload (payload : TaskPayload)
  | setData (parallelData : UInt64)
  | noteEntry (address : UInt64) (flags : UInt32)
  deriving DecidableEq, Repr

namespace SerialStep

def edit (id : WorkerId) : SerialStep → Hierarchy.Edit
  | .enter parallelData returnAddress => .enterSerial id parallelData returnAddress
  | .leave => .leaveSerial id
  | .setPayload payload => .setCurrentPayload id payload
  | .setData parallelData => .setRegionData id parallelData
  | .noteEntry address flags => .noteEntry id address flags

/-- The number of further regions that the worker is in after a step, none if it leaves the region
of the stay. -/
def depth? (depth : Nat) : SerialStep → Option Nat
  | .enter .. => some (depth + 1)
  | .leave => if depth = 0 then none else some (depth - 1)
  | .setPayload _ | .setData _ | .noteEntry .. => some depth

/-- The data that a step gives to the region of the stay, if the worker is in no further one. -/
def data? (depth : Nat) : SerialStep → Option UInt64
  | .setData parallelData => if depth = 0 then some parallelData else none
  | _ => none

/-- All data that some steps give to the region of the stay, in order. -/
def ownData : Nat → List SerialStep → List UInt64
  | _, [] => []
  | depth, step :: steps =>
    (step.data? depth).toList ++ ownData ((step.depth? depth).getD 0) steps

/-- A step that neither enters nor leaves a region does so at no depth. -/
theorem depth?_of_write {step : SerialStep} (h : step.depth? 0 = some 0) (depth : Nat) :
    step.depth? depth = some depth := by
  cases step with
  | enter | leave => simp [depth?] at h
  | setPayload | setData | noteEntry => rfl

theorem data?_succ (step : SerialStep) (depth : Nat) : step.data? (depth + 1) = none := by
  cases step <;> rfl

end SerialStep

namespace Hierarchy

/-- The hierarchy when a worker has done some steps. -/
def doing (h : Hierarchy) (id : WorkerId) (steps : List SerialStep) : Hierarchy :=
  steps.foldl (fun h step => h.edit (step.edit id)) h

/-- A hierarchy during a stay that began in `h`: the worker is in the region of the stay, which has
these data, and in a number of further ones. It has entered all of them from its current task. -/
inductive Stay (h : Hierarchy) (id : WorkerId) (w : Worker) (current : TaskId) :
    Nat → UInt64 → Hierarchy → Prop
  | intro (inner : List SerialRegion) (region : SerialRegion) (state : WorkerState) :
      (∀ r ∈ inner, r.anchor = current) → region.anchor = current →
      Stay h id w current inner.length region.teamPayload.parallelData
        (h.updateWorker id { w with state, regions := inner ++ region :: w.regions })

variable {h h' : Hierarchy} {id : WorkerId} {w : Worker}

/-- A write goes to the latest region and leaves the ones below alone. -/
theorem edit_latest {top : SerialRegion} {rest : List SerialRegion} (hw : h.worker? id = some w)
    (hinnermost : w.innermost? = some (top, rest)) {step : SerialStep}
    (hstep : step.depth? 0 = some 0) :
    ∃ written state, h.edit (step.edit id) =
        h.updateWorker id { w with state, regions := written :: rest } ∧
      written.anchor = top.anchor ∧
      written.teamPayload.parallelData = (step.data? 0).getD top.teamPayload.parallelData := by
  obtain ⟨hregions, hcurrent⟩ := Worker.innermost?_eq_some_iff.mp hinnermost
  cases step with
  | enter | leave => simp [SerialStep.depth?] at hstep
  | setPayload payload =>
    refine ⟨{ top with taskPayload := payload }, w.state, ?_, rfl, rfl⟩
    simp [SerialStep.edit, Hierarchy.edit, setCurrentPayload, hw, hinnermost]
  | setData parallelData =>
    let teamPayload := { top.teamPayload with parallelData }
    refine ⟨{ top with teamPayload }, w.state, ?_, rfl, rfl⟩
    simp [SerialStep.edit, Hierarchy.edit, setRegionData, hw, hinnermost, teamPayload]
  | noteEntry address flags =>
    let frame := { top.taskPayload.frame with enter := address, enterFlags := flags }
    refine ⟨{ top with taskPayload := { top.taskPayload with frame } }, .workParallel, ?_, rfl, rfl⟩
    simp [SerialStep.edit, Hierarchy.edit, noteEntry, currentPayload?, setCurrentPayload, hw,
      hcurrent, hinnermost, worker?_updateWorker_self hw, updateWorker_updateWorker, frame]

namespace Stay

variable {current : TaskId} {task : Task} {depth depth' : Nat} {data : UInt64}

/-- Every step that does not leave the region of the stay goes on with the stay. -/
theorem step (hw : h.worker? id = some w) (hcurrent : w.current = some current)
    (htask : h.task? current = some task) (hstay : Stay h id w current depth data h')
    {step : SerialStep} (hdepth : step.depth? depth = some depth') :
    Stay h id w current depth' ((step.data? depth).getD data) (h'.edit (step.edit id)) := by
  obtain ⟨inner, region, state, hinner, hregion⟩ := hstay
  have hv := worker?_updateWorker_self hw
    { w with state, regions := inner ++ region :: w.regions }
  by_cases hwrite : step.depth? 0 = some 0
  · cases hdepth.symm.trans (SerialStep.depth?_of_write hwrite inner.length)
    -- the write goes to the region of the stay if it is the latest one, and else to one above it
    cases inner with
    | nil =>
      obtain ⟨written, state', hedit, hanchor, hdata⟩ := edit_latest hv
        (Worker.innermost?_eq_some_iff.mpr ⟨rfl, hregion ▸ hcurrent⟩) hwrite
      rw [hedit, updateWorker_updateWorker, List.length_nil, ← hdata]
      exact .intro [] written state' hinner (hanchor.trans hregion)
    | cons top inner =>
      obtain ⟨htop, hinner⟩ := List.forall_mem_cons.mp hinner
      obtain ⟨written, state', hedit, hanchor, -⟩ := edit_latest hv
        (Worker.innermost?_eq_some_iff.mpr ⟨rfl, htop ▸ hcurrent⟩) hwrite
      rw [hedit, updateWorker_updateWorker, List.length_cons, SerialStep.data?_succ]
      exact .intro (written :: inner) region state'
        (List.forall_mem_cons.mpr ⟨hanchor.trans htop, hinner⟩) hregion
  · cases step with
    | enter parallelData returnAddress =>
      cases hdepth
      rw [SerialStep.edit, edit, enterSerial_eq hv hcurrent htask, updateWorker_updateWorker]
      exact .intro (_ :: inner) region state (List.forall_mem_cons.mpr ⟨rfl, hinner⟩) hregion
    | leave =>
      cases inner with
      | nil => simp [SerialStep.depth?] at hdepth
      | cons top inner =>
        cases hdepth
        rw [SerialStep.edit, edit, leaveSerial_eq hv rfl, updateWorker_updateWorker]
        exact .intro inner region state (List.forall_mem_cons.mp hinner).2 hregion
    | _ => exact absurd rfl hwrite

/-- The data of the region after some steps are what the last of its own steps has given it. -/
theorem steps (hw : h.worker? id = some w) (hcurrent : w.current = some current)
    (htask : h.task? current = some task) (hstay : Stay h id w current depth data h')
    {steps : List SerialStep} (hdepth : steps.foldlM SerialStep.depth? depth = some depth') :
    Stay h id w current depth' ((SerialStep.ownData depth steps).getLast?.getD data)
      (h'.doing id steps) := by
  induction steps generalizing depth data h' with
  | nil =>
    cases hdepth
    exact hstay
  | cons step steps ih =>
    rw [List.foldlM_cons] at hdepth
    obtain ⟨next, hnext, hrest⟩ := Option.bind_eq_some_iff.mp hdepth
    have hstays := ih (hstay.step hw hcurrent htask hnext) hrest
    have hdata : (SerialStep.ownData depth (step :: steps)).getLast?.getD data =
        (SerialStep.ownData next steps).getLast?.getD ((step.data? depth).getD data) := by
      rw [SerialStep.ownData, hnext, Option.getD_some]
      cases step.data? depth with
      | none => rfl
      | some own => simp [List.getLast?_cons]
    rw [hdata]
    exact hstays

/-- Leaving the region ends the stay. -/
theorem leaveSerial (hw : h.worker? id = some w) (hstay : Stay h id w current 0 data h') :
    ∃ state, h'.leaveSerial id = (some data, h.updateWorker id { w with state }) := by
  generalize hzero : 0 = depth at hstay
  obtain ⟨inner, region, state, hinner, hregion⟩ := hstay
  cases List.length_eq_zero_iff.mp hzero.symm
  have hv := worker?_updateWorker_self hw { w with state, regions := [] ++ region :: w.regions }
  exact ⟨state, by rw [leaveSerial_eq hv rfl, updateWorker_updateWorker]⟩

end Stay

/-- In any hierarchy that edits have made, let a worker run a task, enter a serial region, do any
steps that do not leave it, with all further regions left at the end, and leave it. Leaving gives
the data that the region was given last while the worker was in no further one, or else those that
it was entered with, and nothing has changed but the state of the worker. -/
theorem stay_leaves_no_trace (edits : List Edit) {id : WorkerId} {w : Worker} {current : TaskId}
    (hw : (ofEdits edits).worker? id = some w) (hcurrent : w.current = some current)
    (parallelData returnAddress : UInt64) {steps : List SerialStep}
    (hsteps : steps.foldlM SerialStep.depth? 0 = some 0) :
    let h := ofEdits edits
    let entered := (h.enterSerial id parallelData returnAddress).2
    let left := (entered.doing id steps).leaveSerial id
    left.1 = some ((SerialStep.ownData 0 steps).getLast?.getD parallelData) ∧
      ∃ state, left.2 = h.updateWorker id { w with state } := by
  intro h entered left
  have hh : h.Sound := sound_ofEdits edits
  obtain ⟨task, htask⟩ := Option.isSome_iff_exists.mp ((hh.worker hw).current current hcurrent)
  let region : SerialRegion :=
    { team := task.team, anchor := current, teamPayload := { parallelData, returnAddress } }
  have hentered : entered = h.updateWorker id (w.entering region) :=
    congrArg Prod.snd (enterSerial_eq hw hcurrent htask parallelData returnAddress)
  have hbegin : Stay h id w current 0 parallelData entered := by
    rw [hentered]
    exact .intro [] region w.state (by simp) rfl
  obtain ⟨state, hleft⟩ := (hbegin.steps hw hcurrent htask hsteps).leaveSerial hw
  exact ⟨congrArg Prod.fst hleft, state, congrArg Prod.snd hleft⟩

/-- A worker that is in a region already enters another one, and within it a third one. -/
theorem stay_leaves_no_trace_nested :
    let task : Task :=
      { team := ⟨0⟩, type := { kind := .implicit }, parent := none, schedulingParent := none
        payload := {} }
    let edits : List Edit := [.addWorker, .addTeam none 1 0 0 {}, .addTask task,
      .assign ⟨0⟩ ⟨0⟩ 0, .enterSerial ⟨0⟩ 7 0]
    let w : Worker := { current := some ⟨0⟩, regions :=
      [{ team := ⟨0⟩, anchor := ⟨0⟩, teamPayload := { parallelData := 7 } }] }
    let steps : List SerialStep := [.setData 1, .setPayload { data := 2 }, .enter 3 0, .setData 4,
      .noteEntry 5 6, .leave, .setPayload { data := 8 }]
    let left := (((ofEdits edits).enterSerial ⟨0⟩ 9 0).2.doing ⟨0⟩ steps).leaveSerial ⟨0⟩
    (ofEdits edits).worker? ⟨0⟩ = some w ∧ w.current = some ⟨0⟩ ∧
      steps.foldlM SerialStep.depth? 0 = some 0 ∧ left.1 = some 1 ∧
      ∃ state, left.2 = (ofEdits edits).updateWorker ⟨0⟩ { w with state } := by
  intro task edits w steps left
  have hw : (ofEdits edits).worker? ⟨0⟩ = some w := by decide +kernel
  have hsteps : steps.foldlM SerialStep.depth? 0 = some 0 := rfl
  obtain ⟨hdata, hleft⟩ := stay_leaves_no_trace edits hw rfl 9 0 hsteps
  exact ⟨hw, rfl, hsteps, hdata, hleft⟩

end Hierarchy
end DeviceTrace
