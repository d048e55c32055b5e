import DeviceTrace.Datum

/-!
# Failures and how they are worded

A failure is a cause with its data. Its wording, its coarse category and the report made of it are
functions of the cause, so that no other module spells out an error text.
-/

namespace DeviceTrace

inductive TraceError
  /-- A call into the device client was refused. -/
  | client (function message : String)
  | allocation (size : Nat)
  | invalidLayout (size align : Nat)
  | corruptRecord (offset : Nat)
  /-- A record is shorter than the layout of its kind. -/
  | truncated (kind : String) (length required : Nat)
  | unknownDevice (id : UInt32)
  | builder (message : String)
  deriving DecidableEq, Repr

inductive ErrorCategory
  | deviceClient
  | resource
  | protocol
  deriving DecidableEq, Repr

/-- One failure as the error handler sees it. -/
structure ErrorReport where
  category : ErrorCategory
  /-- The operation during which the failure came up. -/
  function : String
  message : String
  deriving DecidableEq, Repr

def ErrorCategory.name : ErrorCategory → String
  | .deviceClient => "DeviceClient"
  | .resource => "Resource"
  | .protocol => "Protocol"

def ErrorCategory.description : ErrorCategory → String
  | .deviceClient => "device client error"
  | .resource => "resource error"
  | .protocol => "protocol error"

namespace TraceError

def category : TraceError → ErrorCategory
  | .client .. => .deviceClient
  | .allocation .. | .invalidLayout .. => .resource
  | .corruptRecord .. | .truncated .. | .unknownDevice .. | .builder .. => .protocol

def message : TraceError → String
  | .client function text => s!"{function} failed: {text}"
  | .allocation size => s!"out of memory allocating {size} byte activity buffer"
  | .invalidLayout size align => s!"invalid activity buffer layout: size {size}, align {align}"
  | .corruptRecord offset => s!"corrupt activity record at offset {offset}"
  | .truncated kind length required => s!"truncated {kind} record: {length} bytes, need {required}"
  | .unknownDevice id => s!"unknown device {id}"
  | .builder text => s!"builder: {text}"

/-- The name of the cause. -/
def cause : TraceError → String
  | .client .. => "Client"
  | .allocation .. => "Allocation"
  | .invalidLayout .. => "InvalidLayout"
  | .corruptRecord .. => "CorruptRecord"
  | .truncated .. => "Truncated"
  | .unknownDevice .. => "UnknownDevice"
  | .builder .. => "Builder"

def describe (error : TraceError) : Datum :=
  .fields [("error", .text error.cause), ("message", .text error.message),
    ("category", .text error.category.name)]

def report (error : TraceError) (function : String) : ErrorReport :=
  ⟨error.category, function, error.message⟩

end TraceError

namespace ErrorReport

def display (r : ErrorReport) : String :=
  r.category.description ++ ": function " ++ r.function ++ " failed with error " ++ r.message

def describe (r : ErrorReport) : Datum :=
  .fields [("category", .text r.category.name), ("function", .text r.function),
    ("message", .text r.message), ("display", .text r.display)]

end ErrorReport

end DeviceTrace
