import DeviceTrace.Client.Event

/-!
# Journals described as lists

Each entry of a journal is a list that begins with the name of what happened. A call is described by
its arguments alone, since its failure has an entry of its own. Of records only the first bytes and
the types are given.
-/

namespace DeviceTrace

def ClientCall.describe (call : ClientCall) : Datum :=
  let arguments : List Datum := match call with
    | .enableKind context kind | .disableKind context kind =>
      [.ofUInt64 context.raw, .text kind.label]
    | .registerCallbacks enabled => [.flag enabled]
    | .flushAll forced => [.flag forced]
    | .pushCorrelation id => [.ofUInt64 id.raw]
    | .deviceTimestamp context => [.ofUInt64 context.raw]
    | .droppedRecordCount context stream => [.ofUInt64 context.raw, .ofUInt32 stream]
    | .popCorrelation | .subscribe | .unsubscribe | .finalize => []
  .list (.text call.function :: arguments)

def ModuleEvent.name : ModuleEvent → String
  | .load => "Load"
  | .unload => "Unload"

def Event.describe : Event → Datum
  | .call c _ => c.describe
  | .failure r =>
    .list [.text "error", .text r.category.name, .text r.function, .text r.message]
  | .dropped count => .list [.text "dropped", .ofUInt64 count]
  | .module event id image =>
    .list [.text "module", .text event.name, .ofUInt64 id, .text (Bytes.toHex image)]
  | .records callback batch =>
    .list [.text "records", .number callback, .ofInt32 batch.device, .ofUInt32 batch.context,
      .number batch.size, .text (Bytes.toHex (batch.bytes.take 8)),
      .list (batch.records.map fun v => v.type.describe)]
  | .request source layout =>
    .list [.text "request", .number source, .number layout.size, .number layout.align]

end DeviceTrace
