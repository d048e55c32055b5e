import DeviceTrace.Stream.Records

/-!
# Routing records to handlers

A router maps record kinds to handlers, which are functions on a state of the caller's choice. A
record whose kind has no handler, or whose tag no kind has, goes to the handler for unknown records.
-/

namespace DeviceTrace

abbrev Handler (σ : Type) := RecordView → σ → σ

structure Router (σ : Type) where
  handlers : Kind → Option (Handler σ)
  unknown : Handler σ

/-- How many records went to a kind's own handler, and how many did not. -/
structure RouteCounts where
  handled : Nat := 0
  unknown : Nat := 0
  deriving DecidableEq, Repr

def RouteCounts.add (c : RouteCounts) (handled : Bool) : RouteCounts :=
  if handled then { c with handled := c.handled + 1 } else { c with unknown := c.unknown + 1 }

namespace Router

variable {σ : Type}

/-- No kind has a handler, and unknown records change nothing. -/
def empty : Router σ := ⟨fun _ => none, fun _ s => s⟩

/-- One handler for several kinds, in place of the ones they had. -/
def onKinds (r : Router σ) (kinds : List Kind) (handler : Handler σ) : Router σ :=
  { r with handlers := fun kind => if kind ∈ kinds then some handler else r.handlers kind }

def onKind (r : Router σ) (kind : Kind) (handler : Handler σ) : Router σ :=
  r.onKinds [kind] handler

def onUnknown (r : Router σ) (handler : Handler σ) : Router σ := { r with unknown := handler }

/-- The handler of the record's kind, if there is one. -/
def handlerOf? (r : Router σ) (view : RecordView) : Option (Handler σ) :=
  view.kind?.bind r.handlers

/-- Hands one record to its handler, and says whether that was a kind's own. -/
def route (r : Router σ) (view : RecordView) (s : σ) : Bool × σ :=
  match r.handlerOf? view with
  | some handler => (true, handler view s)
  | none => (false, r.unknown view s)

def routeAll (r : Router σ) : List RecordView → RouteCounts × σ → RouteCounts × σ
  | [], acc => acc
  | view :: views, (counts, s) =>
    let (handled, s) := r.route view s
    r.routeAll views (counts.add handled, s)

/-- Hands the records of a stream to their handlers, in order. -/
def drain (r : Router σ) (bytes : Bytes) (s : σ) : RouteCounts × σ :=
  r.routeAll (records bytes) ({}, s)

end Router
end DeviceTrace
