import DeviceTrace.Proofs.Session.Moves

/-!
# The tracers of a system

Tracers keep their places and what they were registered with: a run changes only the states of
tracers, lets go of some, and appends new ones. So tracers that were registered with different
values stay apart, and a tracer that has stopped stays so.
-/

namespace DeviceTrace

/-- The tracer that an operation makes. -/
def Operation.tracer? : Operation → Option Tracer
  | .register device globalId context => some { device, globalId, context }
  | _ => none

/-- The tracer whose trace an operation moves. -/
def Operation.subject? : Operation → Option Nat
  | .prepare index | .start index .. | .pause index _ | .stop index | .drop index => some index
  | _ => none

/-- The relative ids that were registered. -/
abbrev devicesOf (ops : List Operation) : List DeviceId :=
  (ops.filterMap Operation.tracer?).map Tracer.device

/-- The contexts that were registered. -/
abbrev contextsOf (ops : List Operation) : List ContextHandle :=
  (ops.filterMap Operation.tracer?).map Tracer.context

/-- One tracer in two states. -/
structure Tracer.Same (t t' : Tracer) : Prop where
  device : t'.device = t.device
  globalId : t'.globalId = t.globalId
  context : t'.context = t.context

theorem Tracer.Same.trans {t t' t'' : Tracer} (h : t.Same t') (h' : t'.Same t'') : t.Same t'' :=
  ⟨h'.device.trans h.device, h'.globalId.trans h.globalId, h'.context.trans h.context⟩

theorem TraceMove.same {t t' : Tracer} {s s' : Session} (h : TraceMove t s t' s') : t.Same t' := by
  cases h <;> exact ⟨rfl, rfl, rfl⟩

theorem TraceMove.ne_stopped {t t' : Tracer} {s s' : Session} (h : TraceMove t s t' s') :
    t.state ≠ .stopped := by
  intro hstopped
  cases h with
  | prepare hstate | begin _ _ hstate | suspend hstate | resume hstate | retire hstate =>
    rw [hstopped] at hstate
    cases hstate
  | install _ _ hstate | discard hstate =>
    rw [hstopped] at hstate
    rcases hstate with hstate | hstate <;> cases hstate

namespace System

variable {sys sys' : System} {index : Nat}

theorem tracer?_lapse {j : Nat} {u : Tracer} :
    ({ sys with tracers := sys.tracers.set index none } : System).tracer? j = some u ↔
      index ≠ j ∧ sys.tracer? j = some u := by
  rw [tracer?_eq_some, tracer?_eq_some]
  by_cases heq : index = j
  · subst heq
    simp [List.getElem?_set]
  · rw [List.getElem?_set_ne heq]
    exact ⟨fun h => ⟨heq, h⟩, fun h => h.2⟩

theorem lt_of_tracer? {j : Nat} {u : Tracer} (h : sys.tracer? j = some u) :
    j < sys.tracers.length :=
  (List.getElem?_eq_some_iff.mp (tracer?_eq_some.mp h)).1

theorem tracer?_register {device : DeviceId} {globalId : Int32} {context : ContextHandle} {j : Nat}
    {u : Tracer} : (sys.register device globalId context).tracer? j = some u ↔
      sys.tracer? j = some u ∨ (j = sys.tracers.length ∧ u = { device, globalId, context }) := by
  rw [tracer?_eq_some, tracer?_eq_some, System.register]
  rcases Nat.lt_trichotomy j sys.tracers.length with hlt | rfl | hgt
  · rw [List.getElem?_append_left hlt]
    exact ⟨.inl, fun h => h.elim id fun hnew => absurd hnew.1 (by omega)⟩
  · rw [List.getElem?_concat_length, List.getElem?_eq_none (Nat.le_refl _)]
    simp [eq_comm]
  · rw [List.getElem?_eq_none (by simp; omega), List.getElem?_eq_none (by omega)]
    simp only [reduceCtorEq, false_or, false_iff, not_and]
    omega

/-- An operation that is not of this tracer leaves it as it is. -/
theorem tracer?_step {t : Tracer} (ht : sys.tracer? index = some t) {op : Operation}
    (hop : op.subject? ≠ some index) : (sys.step op).tracer? index = some t := by
  have hcommand {j : Nat} {operation : Tracer → Session → Bool × Tracer × Session}
      (hne : j ≠ index) : (sys.command j operation).2.tracer? index = some t := by
    cases hu : sys.tracer? j with
    | none =>
      rw [command_none hu]
      exact ht
    | some u =>
      rw [command_some hu, tracer?_withTracer hu, if_neg hne]
      exact ht
  by_cases hquiet : op.isQuiet
  · obtain ⟨s', -, hstep⟩ := sys.step_quiet hquiet
    rw [hstep]
    exact ht
  · cases op with
    | register device globalId context =>
      dsimp only [step, perform]
      split
      · exact tracer?_register.mpr (.inl ht)
      · exact ht
    | prepare j | start j _ _ | pause j _ | stop j => exact hcommand fun heq => hop (heq ▸ rfl)
    | drop j =>
      show (sys.dropTracer j).2.tracer? index = some t
      unfold dropTracer
      split
      · exact tracer?_lapse.mpr ⟨fun heq => hop (heq ▸ rfl), ht⟩
      · exact ht
    | forget context =>
      dsimp only [step, perform, owned]
      split <;> exact ht
    | release => exact ht
    | _ => exact absurd rfl hquiet

theorem alive_of_tracer? {t : Tracer} (ht : sys.tracer? index = some t) : sys.alive = true := by
  have hmem : some t ∈ sys.tracers := List.mem_of_getElem? (tracer?_eq_some.mp ht)
  simp only [alive, Bool.or_eq_true, List.any_eq_true]
  exact .inr ⟨some t, hmem, rfl⟩

/-- A move makes no tracers, and leaves them what they were registered with. -/
theorem Move.exists_before (h : sys.Move sys') {u : Tracer} (hu : sys'.tracer? index = some u) :
    ∃ t, sys.tracer? index = some t ∧ t.Same u := by
  cases h with
  | @trace j t t' s' ht hmove =>
    rw [tracer?_withTracer ht] at hu
    split at hu
    · rename_i heq
      cases hu
      exact ⟨t, heq ▸ ht, hmove.same⟩
    · exact ⟨u, hu, ⟨rfl, rfl, rfl⟩⟩
  | lapse _ _ => exact ⟨u, (tracer?_lapse.mp hu).2, ⟨rfl, rfl, rfl⟩⟩
  | quiet _ | release => exact ⟨u, hu, ⟨rfl, rfl, rfl⟩⟩

theorem Moves.exists_before (h : sys.Moves sys') {u : Tracer} (hu : sys'.tracer? index = some u) :
    ∃ t, sys.tracer? index = some t ∧ t.Same u := by
  induction h generalizing u with
  | refl => exact ⟨u, hu, ⟨rfl, rfl, rfl⟩⟩
  | tail _ hlast ih =>
    obtain ⟨v, hv, hsame⟩ := hlast.exists_before hu
    obtain ⟨t, ht, hsame'⟩ := ih hv
    exact ⟨t, ht, hsame'.trans hsame⟩

theorem Moves.length_eq (h : sys.Moves sys') : sys'.tracers.length = sys.tracers.length := by
  refine h.keeps (P := fun a => a.tracers.length = sys.tracers.length) (fun a b ha hmove => ?_) rfl
  cases hmove with
  | trace _ _ | lapse _ _ => simpa [withTracer] using ha
  | quiet _ | release => exact ha

/-- What stands in a place after an operation stood there before, or it was registered and got the
next place. -/
theorem exists_before (sys : System) (op : Operation) {u : Tracer}
    (hu : (sys.step op).tracer? index = some u) : (∃ t, sys.tracer? index = some t ∧ t.Same u) ∨
      (index = sys.tracers.length ∧ op.tracer? = some u) := by
  rcases sys.step_cases op with h | ⟨device, globalId, context, rfl, h⟩ | ⟨context, -, h⟩
  · exact .inl (h.exists_before hu)
  · rw [h] at hu
    rcases tracer?_register.mp hu with hu | ⟨hindex, rfl⟩
    · exact .inl ⟨u, hu, ⟨rfl, rfl, rfl⟩⟩
    · exact .inr ⟨hindex, rfl⟩
  · rw [h] at hu
    exact .inl ⟨u, hu, ⟨rfl, rfl, rfl⟩⟩

theorem length_le_step (sys : System) (op : Operation) :
    sys.tracers.length ≤ (sys.step op).tracers.length := by
  rcases sys.step_cases op with h | ⟨device, globalId, context, -, h⟩ | ⟨context, -, h⟩
  · exact Nat.le_of_eq h.length_eq.symm
  · simp [h, System.register]
  · simp [h]

/-- A place that is taken stays so, by the tracer that it was taken for or by none. -/
theorem tracer?_of_run (hplaced : index < sys.tracers.length) (ops : List Operation) :
    index < (sys.run ops).tracers.length ∧ ∀ u, (sys.run ops).tracer? index = some u →
      ∃ t, sys.tracer? index = some t ∧ t.Same u := by
  induction ops using List.reverseRecOn with
  | nil => exact ⟨hplaced, fun u hu => ⟨u, hu, ⟨rfl, rfl, rfl⟩⟩⟩
  | append_singleton ops op ih =>
    obtain ⟨hlt, hbefore⟩ := ih
    rw [run_concat]
    refine ⟨Nat.lt_of_lt_of_le hlt ((sys.run ops).length_le_step op), fun u hu => ?_⟩
    rcases (sys.run ops).exists_before op hu with ⟨v, hv, hsame⟩ | ⟨hindex, -⟩
    · obtain ⟨t, ht, hsame'⟩ := hbefore v hv
      exact ⟨t, ht, hsame'.trans hsame⟩
    · omega

/-! ## Tracers that differ -/

/-- The live tracers differ in a value that each was registered with, and all have listed ones. -/
structure Apart {α : Type} (value : Tracer → α) (listed : List α) (sys : System) : Prop where
  mem : ∀ index t, sys.tracer? index = some t → value t ∈ listed
  eq : ∀ i j t u, sys.tracer? i = some t → sys.tracer? j = some u → value t = value u → i = j

namespace Apart

variable {α : Type} {value : Tracer → α} {listed : List α}

/-- Live tracers that were there before, with the same values, are still apart. -/
theorem of_before (h : Apart value listed sys) (hbefore : ∀ j u, sys'.tracer? j = some u →
    ∃ v, sys.tracer? j = some v ∧ value v = value u) : Apart value listed sys' := by
  refine ⟨fun j u hu => ?_, fun i j u v hu hv heq => ?_⟩
  · obtain ⟨w, hw, hvalue⟩ := hbefore j u hu
    exact hvalue ▸ h.mem j w hw
  · obtain ⟨u', hu', hvalue⟩ := hbefore i u hu
    obtain ⟨v', hv', hvalue'⟩ := hbefore j v hv
    exact h.eq i j u' v' hu' hv' (hvalue.trans (heq.trans hvalue'.symm))

theorem move (hvalue : ∀ t t', t.Same t' → value t' = value t) (h : Apart value listed sys)
    (hmove : sys.Move sys') : Apart value listed sys' := by
  refine h.of_before fun j u hu => ?_
  obtain ⟨t, ht, hsame⟩ := hmove.exists_before hu
  exact ⟨t, ht, (hvalue t u hsame).symm⟩

theorem register (h : Apart value listed sys) {device : DeviceId} {globalId : Int32}
    {context : ContextHandle} (hnew : value { device, globalId, context } ∉ listed) :
    Apart value (listed ++ [value { device, globalId, context }])
      (sys.register device globalId context) := by
  have hne {j : Nat} {u : Tracer} (hu : sys.tracer? j = some u) :
      value u ≠ value { device, globalId, context } := by
    intro heq
    exact hnew (heq ▸ h.mem j u hu)
  refine ⟨fun j u hu => ?_, fun i j u v hu hv heq => ?_⟩
  · rcases tracer?_register.mp hu with hu | ⟨-, rfl⟩
    · exact List.mem_append_left _ (h.mem j u hu)
    · exact List.mem_append_right _ (List.mem_singleton.mpr rfl)
  · rcases tracer?_register.mp hu with hu | ⟨rfl, rfl⟩ <;>
      rcases tracer?_register.mp hv with hv | ⟨rfl, rfl⟩
    · exact h.eq i j u v hu hv heq
    · exact absurd heq (hne hu)
    · exact absurd heq.symm (hne hv)
    · rfl

theorem mono (h : Apart value listed sys) {more : List α} :
    Apart value (listed ++ more) sys :=
  ⟨fun j u hu => List.mem_append_left _ (h.mem j u hu), h.eq⟩

end Apart

/-- Tracers registered with different values are apart in every state of a run. -/
theorem apart_run {α : Type} {value : Tracer → α}
    (hvalue : ∀ t t', t.Same t' → value t' = value t) (hnone : sys.tracers = [])
    (ops : List Operation) (honce : ((ops.filterMap Operation.tracer?).map value).Nodup) :
    Apart value ((ops.filterMap Operation.tracer?).map value) (sys.run ops) := by
  induction ops using List.reverseRecOn with
  | nil =>
    have htracer (j : Nat) : sys.tracer? j = none := by simp [tracer?, hnone]
    exact ⟨fun j u hu => by simp [htracer] at hu, fun i j u v hu => by simp [htracer] at hu⟩
  | append_singleton ops op ih =>
    rw [List.filterMap_append, List.map_append] at honce ⊢
    have happart := ih (List.nodup_append.mp honce).1
    rw [run_concat]
    rcases step_cases (sys.run ops) op with
      h | ⟨device, globalId, context, rfl, h⟩ | ⟨context, -, h⟩
    · exact (h.keeps (fun _ _ ha hmove => ha.move hvalue hmove) happart).mono
    · rw [h]
      refine happart.register fun hmem => ?_
      exact (List.nodup_append.mp honce).2.2 _ hmem _ (List.mem_singleton.mpr rfl) rfl
    · rw [h]
      exact ⟨happart.mono.mem, happart.eq⟩

/-! ## Tracers that have stopped -/

/-- The tracer of this place is stopped, or it is gone. -/
structure Ended (sys : System) (index : Nat) : Prop where
  placed : index < sys.tracers.length
  stopped : ∀ t, sys.tracer? index = some t → t.state = .stopped

theorem Ended.move (hsys : sys.Ended index) (h : sys.Move sys') : sys'.Ended index := by
  cases h with
  | @trace j t t' s' ht hmove =>
    refine ⟨by simpa [withTracer] using hsys.placed, fun u hu => ?_⟩
    rw [tracer?_withTracer ht] at hu
    split at hu
    · rename_i heq
      subst heq
      exact absurd (hsys.stopped t ht) hmove.ne_stopped
    · exact hsys.stopped u hu
  | lapse _ _ =>
    refine ⟨by simpa using hsys.placed, fun u hu => ?_⟩
    exact hsys.stopped u (tracer?_lapse.mp hu).2
  | quiet _ | release => exact ⟨hsys.placed, hsys.stopped⟩

theorem Ended.register (hsys : sys.Ended index) (device : DeviceId) (globalId : Int32)
    (context : ContextHandle) : (sys.register device globalId context).Ended index := by
  have hplaced := hsys.placed
  refine ⟨by simp [System.register]; omega, fun u hu => ?_⟩
  rcases tracer?_register.mp hu with hu | ⟨rfl, -⟩
  · exact hsys.stopped u hu
  · omega

theorem ended_run (hsys : sys.Ended index) (ops : List Operation) : (sys.run ops).Ended index := by
  refine run_keeps (P := (Ended · index)) ?_ ?_ ?_ hsys ops
  · exact fun _ _ ha hmove => ha.move hmove
  · exact fun _ device globalId context ha => ha.register device globalId context
  · exact fun _ _ ha => ⟨ha.placed, ha.stopped⟩

end System
end DeviceTrace
