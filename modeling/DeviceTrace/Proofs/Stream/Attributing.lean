import DeviceTrace.Stream.HostLinks
import DeviceTrace.Stream.Router
import Mathlib.Data.Finset.Card

/-!
# Which host operation a record is attributed to

A router that is built from registrations hands a record to the handler that was registered last for
its kind, and if there is none to the one registered last for unknown records. If all handlers work
on one collection of links, then at any time the collection tells what the links handed out so far
say, the later of two links for an id. So every record is attributed by the records before it,
whether they came in the same drain or in an earlier one.
-/

namespace DeviceTrace

/-- What a handler is registered for. -/
inductive Registration
  | kind (kind : Kind)
  | kinds (kinds : List Kind)
  | unknown
  deriving DecidableEq, Repr

namespace Registration

def covers (kind : Kind) : Registration → Bool
  | .kind k => k = kind
  | .kinds ks => kind ∈ ks
  | .unknown => false

/-- The place of the last registration of some sort. -/
def lastPlace? (sort : Registration → Bool) (regs : List Registration) : Option Nat :=
  (regs.zipIdx.filter fun entry => sort entry.1).getLast?.map Prod.snd

/-- The place of the last registration for the kind of a record. -/
def kindPlace? (regs : List Registration) (view : RecordView) : Option Nat :=
  view.kind?.bind fun kind => lastPlace? (covers kind) regs

/-- The place of the registration whose handler takes a record. -/
def takerOf? (regs : List Registration) (view : RecordView) : Option Nat :=
  (kindPlace? regs view).or (lastPlace? (· = .unknown) regs)

theorem lastPlace?_concat (sort : Registration → Bool) (regs : List Registration)
    (reg : Registration) :
    lastPlace? sort (regs ++ [reg]) =
      if sort reg then some regs.length else lastPlace? sort regs := by
  rw [lastPlace?, List.zipIdx_append, List.filter_append]
  cases h : sort reg <;> simp [lastPlace?, h]

end Registration

/-- Work for a router: a whole stream or a single record. -/
inductive RouteStep
  | drain (bytes : Bytes)
  | dispatch (view : RecordView)
  deriving DecidableEq, Repr

def RouteStep.views : RouteStep → List RecordView
  | .drain bytes => records bytes
  | .dispatch view => [view]

namespace Router

variable {σ : Type}

def register (r : Router σ) (handler : Handler σ) : Registration → Router σ
  | .kind kind => r.onKind kind handler
  | .kinds kinds => r.onKinds kinds handler
  | .unknown => r.onUnknown handler

/-- The router that some registrations lead to, each with the handler of its place. -/
def ofRegistrations (handler : Nat → Handler σ) (regs : List Registration) : Router σ :=
  regs.zipIdx.foldl (fun r entry => r.register (handler entry.2) entry.1) .empty

def step (r : Router σ) (s : σ) : RouteStep → σ
  | .drain bytes => (r.drain bytes s).2
  | .dispatch view => (r.route view s).2

def run (r : Router σ) (s : σ) (steps : List RouteStep) : σ := steps.foldl r.step s

/-! ## Registrations -/

theorem ofRegistrations_concat (handler : Nat → Handler σ) (regs : List Registration)
    (reg : Registration) :
    ofRegistrations handler (regs ++ [reg]) =
      (ofRegistrations handler regs).register (handler regs.length) reg := by
  rw [ofRegistrations, List.zipIdx_append, List.foldl_append, Nat.zero_add]
  rfl

theorem handlers_ofRegistrations (handler : Nat → Handler σ) (regs : List Registration)
    (kind : Kind) :
    (ofRegistrations handler regs).handlers kind =
      (Registration.lastPlace? (Registration.covers kind) regs).map handler := by
  induction regs using List.reverseRecOn with
  | nil => rfl
  | append_singleton regs reg ih =>
    rw [ofRegistrations_concat, Registration.lastPlace?_concat]
    cases reg with
    | kind other =>
      show (if kind ∈ [other] then some (handler regs.length) else _) =
        (if decide (other = kind) then some regs.length else _).map handler
      by_cases h : other = kind
      · rw [if_pos (List.mem_singleton.mpr h.symm), if_pos (decide_eq_true h), Option.map_some]
      · rw [if_neg fun hmem => h (List.mem_singleton.mp hmem).symm, if_neg (by simpa using h), ih]
    | kinds others =>
      show (if kind ∈ others then some (handler regs.length) else _) =
        (if decide (kind ∈ others) then some regs.length else _).map handler
      by_cases h : kind ∈ others
      · rw [if_pos h, if_pos (decide_eq_true h), Option.map_some]
      · rw [if_neg h, if_neg (by simpa using h), ih]
    | unknown => exact ih

theorem unknown_ofRegistrations (handler : Nat → Handler σ) (regs : List Registration) :
    (ofRegistrations handler regs).unknown =
      ((Registration.lastPlace? (· = .unknown) regs).map handler).getD fun _ s => s := by
  induction regs using List.reverseRecOn with
  | nil => rfl
  | append_singleton regs reg ih =>
    rw [ofRegistrations_concat, Registration.lastPlace?_concat]
    cases reg with
    | kind k => exact ih
    | kinds ks => exact ih
    | unknown => rfl

/-- A record goes to the handler of the last registration for its kind, else to the last one for
unknown records, and else nothing happens. -/
theorem route_ofRegistrations (handler : Nat → Handler σ) (regs : List Registration)
    (view : RecordView) (s : σ) :
    ((ofRegistrations handler regs).route view s).2 =
      ((Registration.takerOf? regs view).map fun place => handler place view s).getD s := by
  have hhandler : (ofRegistrations handler regs).handlerOf? view =
      (Registration.kindPlace? regs view).map handler := by
    rw [handlerOf?, Registration.kindPlace?, Option.map_bind]
    exact congrArg (view.kind?.bind ·) (funext fun kind => handlers_ofRegistrations ..)
  rw [route, hhandler, Registration.takerOf?]
  cases Registration.kindPlace? regs view with
  | some place => rfl
  | none =>
    show (ofRegistrations handler regs).unknown view s = _
    rw [unknown_ofRegistrations, Option.none_or]
    cases Registration.lastPlace? (· = .unknown) regs <;> rfl

theorem snd_routeAll (r : Router σ) (views : List RecordView) (acc : RouteCounts × σ) :
    (r.routeAll views acc).2 = views.foldl (fun s view => (r.route view s).2) acc.2 := by
  induction views generalizing acc with
  | nil => rfl
  | cons view views ih => exact ih _

/-- Work in steps hands out the records of all steps, one after the other. -/
theorem run_eq_foldl (r : Router σ) (s : σ) (steps : List RouteStep) :
    r.run s steps =
      (steps.flatMap RouteStep.views).foldl (fun s view => (r.route view s).2) s := by
  induction steps generalizing s with
  | nil => rfl
  | cons step steps ih =>
    rw [run, List.foldl_cons, ← run, ih, List.flatMap_cons, List.foldl_append]
    cases step with
    | drain bytes => rw [Router.step, drain, snd_routeAll]; rfl
    | dispatch view => rfl

end Router

/-! ## Links -/

/-- The operation that the latest link for an id names. -/
def latestOperation? (links : List HostLink) (id : DeviceCorrelationId) : Option UInt64 :=
  (links.filter fun link => link.correlation = id).getLast?.map HostLink.external

/-- What links say about a record: copies, launches, API calls and samples are attributed by their
correlation ids, and all other records have none. -/
def attribution? (links : List HostLink) : Record → Option UInt64
  | .copy copy => latestOperation? links copy.correlation
  | .launch launch => latestOperation? links launch.correlation
  | .driverCall call | .runtimeCall call => latestOperation? links call.correlation
  | .sample sample => latestOperation? links sample.correlation
  | .sampleTotals totals => latestOperation? links totals.correlation
  | _ => none

/-- The link that a record makes known to a handler that takes it. -/
def linkIn? (view : RecordView) : Option HostLink :=
  match Record.decode view with
  | .ok (.hostLink link) => some link
  | _ => none

theorem latestOperation?_concat (links : List HostLink) (link : HostLink)
    (id : DeviceCorrelationId) :
    latestOperation? (links ++ [link]) id =
      if link.correlation = id then some link.external else latestOperation? links id := by
  rw [latestOperation?, List.filter_append]
  by_cases h : link.correlation = id <;> simp [latestOperation?, h]

example : latestOperation? [⟨.unknown, 1, 7⟩, ⟨.unknown, 2, 8⟩, ⟨.unknown, 1, 9⟩] 1 = some 9 := by
  decide

theorem isSome_latestOperation? (links : List HostLink) (id : DeviceCorrelationId) :
    (latestOperation? links id).isSome ↔ id ∈ links.map HostLink.correlation := by
  simp [latestOperation?]

namespace HostLinks

/-- The collection is what one has that has learnt these links. -/
structure Knows (l : HostLinks) (links : List HostLink) : Prop where
  operation : ∀ id, l.operation? id = latestOperation? links id
  size : l.size = (links.map HostLink.correlation).toFinset.card

theorem knows_nil : Knows {} [] := ⟨fun _ => rfl, rfl⟩

theorem Knows.mem {l : HostLinks} {links : List HostLink} (h : l.Knows links)
    (id : DeviceCorrelationId) : id ∈ l.operations ↔ id ∈ links.map HostLink.correlation := by
  rw [← isSome_latestOperation?, ← h.operation, operation?, Std.TreeMap.isSome_getElem?_iff_mem]

theorem Knows.learn {l : HostLinks} {links : List HostLink} (h : l.Knows links) (link : HostLink) :
    (l.learn link).Knows (links ++ [link]) := by
  constructor
  · intro id
    rw [latestOperation?_concat, HostLinks.learn, operation?, Std.TreeMap.getElem?_insert,
      ← operation?, h.operation]
    simp only [Std.LawfulEqCmp.compare_eq_iff_eq]
  · show (l.operations.insert link.correlation link.external).size = _
    have hsize : l.operations.size = _ := h.size
    rw [Std.TreeMap.size_insert, hsize, List.map_append, List.map_singleton,
      List.toFinset_append, List.toFinset_cons, List.toFinset_nil, insert_empty_eq,
      Finset.union_comm, ← Finset.insert_eq, Finset.card_insert_eq_ite]
    simp only [Std.TreeMap.contains_iff_mem, h.mem, List.mem_toFinset]

theorem Knows.operationOf? {l : HostLinks} {links : List HostLink} (h : l.Knows links)
    (record : Record) : l.operationOf? record = attribution? links record := by
  cases record <;> first | rfl | exact h.operation _

/-- A record is attributed by the links before it, and adds its own link to them if it has one. -/
theorem Knows.resolve {l : HostLinks} {links : List HostLink} (h : l.Knows links)
    (view : RecordView) :
    (l.resolve view).1 = (Record.decode view).map (attribution? links) ∧
      (l.resolve view).2.Knows (links ++ (linkIn? view).toList) := by
  rw [HostLinks.resolve, linkIn?]
  cases Record.decode view with
  | error e => exact ⟨rfl, by simpa using h⟩
  | ok record =>
    cases record with
    | hostLink link => exact ⟨rfl, h.learn link⟩
    | _ => exact ⟨congrArg Except.ok (h.operationOf? _), by simpa using h⟩

end HostLinks

/-! ## Handlers that attribute -/

/-- What a handler that attributes has done: where it was registered, the record, the answer, and
how many ids it knew afterwards. -/
structure Taken where
  place : Nat
  view : RecordView
  answer : Except TraceError (Option UInt64)
  known : Nat

/-- What the handlers share: one collection of links, and an account of the records they took. -/
structure Attributions where
  links : HostLinks := {}
  taken : List Taken := []

/-- The handler of a place, which attributes the record that it is given. -/
def attributing (place : Nat) : Handler Attributions := fun view a =>
  let (answer, links) := a.links.resolve view
  ⟨links, a.taken ++ [⟨place, view, answer, links.size⟩]⟩

namespace Registration

/-- The link that a record makes known, if any handler takes it. -/
def observed? (regs : List Registration) (view : RecordView) : Option HostLink :=
  (takerOf? regs view).bind fun _ => linkIn? view

/-- What is to be done about a record that comes after these links. -/
def taken? (regs : List Registration) (links : List HostLink) (view : RecordView) :
    Option Taken :=
  (takerOf? regs view).map fun place =>
    { place, view
      answer := (Record.decode view).map (attribution? links)
      known := ((links ++ (linkIn? view).toList).map HostLink.correlation).toFinset.card }

/-- The account of some records, each answered from the links observed in those before it. -/
def account (regs : List Registration) (views : List RecordView) : List Taken :=
  views.zipIdx.filterMap fun (view, n) =>
    taken? regs ((views.take n).filterMap (observed? regs)) view

/-- A record that is added changes nothing in the account of the records before it. -/
theorem account_concat (regs : List Registration) (views : List RecordView) (view : RecordView) :
    account regs (views ++ [view]) =
      account regs views ++ (taken? regs (views.filterMap (observed? regs)) view).toList := by
  rw [account, List.zipIdx_append, List.filterMap_append]
  congr 1
  · refine List.filterMap_congr fun entry hentry => ?_
    have hlt : entry.2 < views.length := List.snd_lt_of_mem_zipIdx hentry
    simp only [List.take_append_of_le_length hlt.le]
  · cases h : taken? regs (views.filterMap (observed? regs)) view <;> simp [h]

end Registration

namespace Router

open Registration

theorem route_attributing (regs : List Registration) (view : RecordView) {a : Attributions}
    {links : List HostLink} (h : a.links.Knows links) :
    let after := ((ofRegistrations attributing regs).route view a).2
    after.taken = a.taken ++ (taken? regs links view).toList ∧
      after.links.Knows (links ++ (observed? regs view).toList) := by
  intro after
  obtain ⟨hanswer, hknows⟩ := h.resolve view
  have hafter : after = _ := route_ofRegistrations ..
  rw [hafter, taken?, observed?]
  cases takerOf? regs view with
  | none => exact ⟨(List.append_nil _).symm, by simpa using h⟩
  | some place =>
    refine ⟨congrArg (a.taken ++ [·]) ?_, hknows⟩
    show Taken.mk place view (a.links.resolve view).1 (a.links.resolve view).2.size = _
    rw [hanswer, hknows.size]

theorem foldl_route_attributing (regs : List Registration) (views : List RecordView) :
    let after := views.foldl
      (fun a view => ((ofRegistrations attributing regs).route view a).2) {}
    after.taken = account regs views ∧
      after.links.Knows (views.filterMap (observed? regs)) := by
  induction views using List.reverseRecOn with
  | nil => exact ⟨rfl, HostLinks.knows_nil⟩
  | append_singleton views view ih =>
    obtain ⟨htaken, hknows⟩ := ih
    obtain ⟨htaken', hknows'⟩ := route_attributing regs view hknows
    rw [List.foldl_append, account_concat, List.filterMap_append, ← htaken]
    exact ⟨htaken', hknows'⟩

/-- In any steps of a router whose handlers all attribute, every record is taken once, in order, by
the handler registered last for it, and is attributed by the latest link for its id that a handler
took before it. -/
theorem attributed_in_steps (regs : List Registration) (steps : List RouteStep) :
    let views := steps.flatMap RouteStep.views
    let after := (ofRegistrations attributing regs).run {} steps
    after.taken = account regs views ∧
      after.links.size =
        ((views.filterMap (observed? regs)).map HostLink.correlation).toFinset.card := by
  intro views after
  have hafter : after = _ := run_eq_foldl (ofRegistrations attributing regs) {} steps
  obtain ⟨htaken, hknows⟩ := foldl_route_attributing regs views
  rw [hafter]
  exact ⟨htaken, hknows.size⟩

end Router
end DeviceTrace
