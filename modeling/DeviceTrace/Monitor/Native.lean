import DeviceTrace.Monitor.Basic

/-!
# Categories of native records

A tool asks for native records by category, one bit of a word for each. Whatever it asks for, links
to host operations are enabled as well.
-/

namespace DeviceTrace

/-- The categories in the order of their bits, the lowest first. -/
def nativeCategories : List KindSet :=
  [.dataMotionExplicit, .dataMotionImplicit, .kernelInvocation, .kernelExecution, .driver, .runtime,
   .overhead]

/-- The categories chosen by a word, none if the word is zero or has a bit without a category. -/
def chosenCategories? (flags : UInt32) : Option (List KindSet) :=
  if flags = 0 || flags.toNat ≥ Nat.pow 2 nativeCategories.length then none
  else some ((nativeCategories.zipIdx.filter fun entry => flags.toNat.testBit entry.2).map (·.1))

inductive NativeReach
  | all
  | some
  | none
  /-- The word names no category, or one that does not exist. Nothing was changed. -/
  | error
  deriving DecidableEq, Repr

/-- Whether any of several requests reached a kind, and whether any missed one. -/
structure NativeProgress where
  anySet : Bool := false
  anyFailed : Bool := false
  deriving DecidableEq, Repr

def NativeProgress.add (p : NativeProgress) : Reach → NativeProgress
  | .all => { p with anySet := true }
  | .some => ⟨true, true⟩
  | .none => { p with anyFailed := true }

def NativeProgress.reach (p : NativeProgress) : NativeReach :=
  if p.anySet then if p.anyFailed then .some else .all else .none

namespace Monitor

def switchSets (m : Monitor) (context : ContextHandle) (enable : Bool) :
    List KindSet → NativeProgress → NativeProgress × Monitor
  | [], progress => (progress, m)
  | set :: sets, progress =>
    let (reach, m) := m.switchSet context set enable
    m.switchSets context enable sets (progress.add reach)

/-- Enables or disables the chosen categories, and then enables links to host operations. -/
def switchCategories (m : Monitor) (context : ContextHandle) (flags : UInt32) (enable : Bool) :
    NativeReach × Monitor :=
  match chosenCategories? flags with
  | none => (.error, m)
  | some sets =>
    let (progress, m) := m.switchSets context enable sets {}
    let (_, m) := m.switchSet context .externalCorrelation true
    (progress.reach, m)

end Monitor
end DeviceTrace
