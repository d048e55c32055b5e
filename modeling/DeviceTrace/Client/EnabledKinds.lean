import DeviceTrace.Record.Kind

/-!
# Enabled kinds

Which record kinds are enabled in which contexts, as a set of pairs. Both the client and the session
keep such a set. The set is its membership test, so two sets with the same members are equal.
-/

namespace DeviceTrace

/-- A context of the device client, whose number means nothing to the session. -/
structure ContextHandle where
  raw : UInt64
  deriving DecidableEq, Repr

@[ext] structure EnabledKinds where
  contains : ContextHandle → Kind → Bool

namespace EnabledKinds

def empty : EnabledKinds := ⟨fun _ _ => false⟩

/-- Makes one kind of one context a member, or no member. -/
def set (e : EnabledKinds) (context : ContextHandle) (kind : Kind) (enable : Bool) : EnabledKinds :=
  ⟨fun c k => if c = context ∧ k = kind then enable else e.contains c k⟩

def clear (e : EnabledKinds) (context : ContextHandle) : EnabledKinds :=
  ⟨fun c k => if c = context then false else e.contains c k⟩

/-- The enabled kinds of a context in the order of their numbers. -/
def kinds (e : EnabledKinds) (context : ContextHandle) : List Kind :=
  Kind.all.filter (e.contains context)

@[simp] theorem contains_empty (c : ContextHandle) (k : Kind) : empty.contains c k = false := rfl

@[simp] theorem contains_set (e : EnabledKinds) (context : ContextHandle) (kind : Kind)
    (enable : Bool) (c : ContextHandle) (k : Kind) :
    (e.set context kind enable).contains c k =
      if c = context ∧ k = kind then enable else e.contains c k := rfl

@[simp] theorem contains_clear (e : EnabledKinds) (context c : ContextHandle) (k : Kind) :
    (e.clear context).contains c k = if c = context then false else e.contains c k := rfl

@[simp] theorem mem_kinds (e : EnabledKinds) (context : ContextHandle) (k : Kind) :
    k ∈ e.kinds context ↔ e.contains context k = true := by
  simp [kinds, Kind.mem_all]

end EnabledKinds
end DeviceTrace
