import DeviceTrace.Record.Kind

/-!
# Kind sets

A kind set is a named list of kinds. The list may be closed by `invalid`; what comes after it does
not belong to the set.
-/

namespace DeviceTrace

/-- The kinds before the first `invalid`. -/
def Kind.valid (kinds : List Kind) : List Kind := kinds.takeWhile (· != .invalid)

structure KindSet where
  name : String
  listed : List Kind
  deriving DecidableEq, Repr

namespace KindSet

def kinds (s : KindSet) : List Kind := Kind.valid s.listed

def externalCorrelation : KindSet := ⟨"external-correlation", [.externalCorrelation]⟩
def dataMotionExplicit : KindSet := ⟨"data-motion-explicit", [.memcpy]⟩
def dataMotionImplicit : KindSet := ⟨"data-motion-implicit", [.unifiedMemoryCounter, .memcpy2]⟩
def kernelInvocation : KindSet := ⟨"kernel-invocation", [.kernel]⟩
def kernelExecution : KindSet := ⟨"kernel-execution", [.pcSampling, .function]⟩
def overhead : KindSet := ⟨"overhead", [.overhead]⟩
def driver : KindSet := ⟨"driver", [.driver]⟩
def runtime : KindSet := ⟨"runtime", [.runtime]⟩

/-- The sets that have a name of their own. -/
def predefined : List KindSet :=
  [externalCorrelation, dataMotionExplicit, dataMotionImplicit, kernelInvocation, kernelExecution,
   overhead, driver, runtime]

end KindSet
end DeviceTrace
