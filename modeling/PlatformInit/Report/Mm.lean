import PlatformInit.Mm.Gateway
import PlatformInit.Mm.Ipl
import PlatformInit.Report.Pe
import PlatformInit.Report.Platform

/-!
Reports of what belongs to management mode: buffers, mailboxes, ranges of SMRAM and gateway rules.
-/
set_option autoImplicit false
namespace PlatformInit

instance : Problem CommBufferError where
  describe
    | .tooSmallForHeader => Problem.bare "TooSmallForHeader"
    | .tooSmallForMessage => Problem.bare "TooSmallForMessage"
    | .invalidRecipient => Problem.bare "InvalidRecipient"

namespace CommError

def name : CommError → String
  | noCommBuffer => "NoCommBuffer"
  | commBufferNotFound => "CommBufferNotFound"
  | commBufferTooSmall => "CommBufferTooSmall"
  | commBufferInitError => "CommBufferInitError"
  | invalidDataBuffer => "InvalidDataBuffer"
  | swMmiServiceNotAvailable => "SwMmiServiceNotAvailable"
  | swMmiFailed => "SwMmiFailed"
  | invalidResponse => "InvalidResponse"
  | invalidParameter => "InvalidParameter"
  | handlerNotFound => "HandlerNotFound"
  | mmHandlerFailed _ => "MmHandlerFailed"

def all (status : Status) : List CommError :=
  [noCommBuffer, commBufferNotFound, commBufferTooSmall, commBufferInitError, invalidDataBuffer,
    swMmiServiceNotAvailable, swMmiFailed, invalidResponse, invalidParameter, handlerNotFound,
    mmHandlerFailed status]

end CommError

instance : Problem CommError where
  describe e :=
    match e with
    | .mmHandlerFailed s => Problem.detailed e.name e.toEfi (hexText s.toNat)
    | _ => Problem.named e.name e.toEfi

instance : ToValue CommHeader where
  toValue h := .record [("guid", toValue h.recipient), ("message_length", toValue h.messageLength),
    ("bytes", toValue h.toBytes)]

def CoreRecord.mailbox (r : CoreRecord) : Value :=
  .record [("buffer", toValue r.buffer), ("size", toValue r.bufferSize), ("status", toValue r.status),
    ("in_mm", .flag r.inMm), ("registered", .flag r.registered)]

instance : ToValue CoreImage := ⟨fun i => .list [toValue i.base, toValue i.size, toValue i.entryPoint]⟩

instance : ToValue SmramTable := ⟨fun t => toValue t.ranges⟩

instance : ToValue Carveout where
  toValue c := .record [("index", .count c.index), ("size", toValue c.size),
    ("destination", toValue c.destination)]

instance : OfValue Carveout where
  ofValue? v := do return ⟨← v.field "index", ← v.field "size", ← v.field "destination"⟩

def GatewayAction.name : GatewayAction → String
  | readyToLock => "ReadyToLock"
  | forward => "Forward"
  | dispatch => "Dispatch"
  | goneVirtual => "GoneVirtual"

instance : ToValue EventRule where
  toValue r := .record
    [("source", .text (if r.source.isProtocol then "protocol" else "group")),
      ("guid", toValue r.source.guid), ("close_on_lock", .flag r.closeOnLock),
      ("action", .text r.action.name)]

instance : OfValue EventSource where
  ofValue? v := do
    match (← v.field "source" : String) with
    | "protocol" => return .protocol (← v.field "guid")
    | "group" => return .group (← v.field "guid")
    | _ => none

instance : OfValue MappedVolume where
  ofValue? v := do return ⟨← v.field "base", ← v.field "bytes"⟩

def MmiPorts.requested (v : Value) : Option MmiPorts := do
  let d : MmiPorts := {}
  let v := (v.get? "config").getD .null
  return { command := ← v.fieldD "cmd_port" d.command
           data := ← v.fieldD "data_port" d.data
           defaultCommand := ← v.fieldD "default_command" d.defaultCommand }

end PlatformInit
