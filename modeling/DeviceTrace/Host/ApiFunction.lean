/-!
# API functions

The functions of the device API that correlation tells apart, and the filter that chooses the ones
whose calls are correlated.
-/

namespace DeviceTrace

inductive ApiFunction
  | memcpyHtoD | memcpyDtoH | memcpyDtoD | memcpyHtoDAsync | memcpyDtoHAsync | memcpyDtoDAsync
  | memcpyPeer | launchKernel | launchCooperativeKernel | streamSynchronize | eventSynchronize
  | contextSynchronize | memAlloc | memFree | moduleLoad | moduleUnload
  /-- Any other function, by its number. -/
  | other (callback : UInt32)
  deriving DecidableEq, Repr

namespace ApiFunction

/-- The functions with a name of their own. -/
def named : List (String × ApiFunction) :=
  [("MemcpyHtoD", memcpyHtoD), ("MemcpyDtoH", memcpyDtoH), ("MemcpyDtoD", memcpyDtoD),
   ("MemcpyHtoDAsync", memcpyHtoDAsync), ("MemcpyDtoHAsync", memcpyDtoHAsync),
   ("MemcpyDtoDAsync", memcpyDtoDAsync), ("MemcpyPeer", memcpyPeer),
   ("LaunchKernel", launchKernel), ("LaunchCooperativeKernel", launchCooperativeKernel),
   ("StreamSynchronize", streamSynchronize), ("EventSynchronize", eventSynchronize),
   ("ContextSynchronize", contextSynchronize), ("MemAlloc", memAlloc), ("MemFree", memFree),
   ("ModuleLoad", moduleLoad), ("ModuleUnload", moduleUnload)]

def ofName? (name : String) : Option ApiFunction := named.lookup name

end ApiFunction

/-- Whether a call is about to be made or has returned. -/
inductive ApiSite
  | enter
  | exit
  deriving DecidableEq, Repr

structure CallFilter where
  allowed : List ApiFunction
  deriving DecidableEq, Repr

namespace CallFilter

def allows (f : CallFilter) (function : ApiFunction) : Bool := function ∈ f.allowed

/-- Copies, launches and synchronisation: the calls that cause records worth attributing. -/
def standard : CallFilter where
  allowed := [.memcpyHtoD, .memcpyDtoH, .memcpyDtoD, .memcpyHtoDAsync, .memcpyDtoHAsync,
    .memcpyDtoDAsync, .memcpyPeer, .launchKernel, .launchCooperativeKernel, .streamSynchronize,
    .eventSynchronize, .contextSynchronize]

end CallFilter
end DeviceTrace
