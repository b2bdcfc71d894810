import PlatformInit.Bench.Platform
import PlatformInit.Bench.Ports
import PlatformInit.Report.Mm

/-!
A scripted management mode (MM) core, behind the mailbox and behind direct calls, with the buffers
and the chipset around it.
-/
set_option autoImplicit false
namespace PlatformInit.Bench

structure CoreReply where
  data : Option Bytes
  size : Option UInt64
  status : Status
  silent : Bool

def CoreReply.plain : CoreReply := ⟨none, none, 0, false⟩

instance : OfValue CoreReply where
  ofValue? v := do
    return ⟨← v.field? "data", ← v.field? "size", ← v.fieldD "status" 0, v.has "silent"⟩

structure MmWorld where
  window : Window
  replies : List CoreReply
  directReplies : List CoreReply
  core : Option UInt64
  installed : List Guid
  cacheCalls : Nat

abbrev MmTrace := Traced MmWorld
abbrev MmMachine := Machine MmTrace

namespace MmWorld

def requested (v : Value) (core : Option UInt64) : Option MmWorld := do
  return ⟨← Window.closed.override v, ← v.items "replies", ← v.items "direct_replies", core, [], 0⟩

end MmWorld

def smramAccess : SmramAccess MmTrace :=
  Window.access MmWorld.window fun window w => { w with window }

def freeMemory : UInt64 := 0x100000000000

def noteMm (name : String) (args : List Value) (m : MmMachine) : MmMachine :=
  { m with world := m.world.note name args }

def changeMm (f : MmWorld → MmWorld) (m : MmMachine) : MmMachine :=
  { m with world := m.world.change f }

def answerMmi (m : MmMachine) : MmMachine :=
  match m.world.world.core with
  | none => noteMm "mmi" [.null] m
  | some core =>
    let reply := m.world.world.replies.head?.getD .plain
    let m := changeMm (fun w => { w with replies := w.replies.tail }) m
    let record := m.cores core
    let address := record.buffer.toNat
    let request := m.memory.read address record.bufferSize.toNat
    let header := CommHeader.read? request
    let m := noteMm "mmi" [.record [("guid", toValue (header.map (·.recipient))),
      ("length", toValue (header.map (·.messageLength))),
      ("data", toValue (request.drop CommHeader.size))]] m
    if reply.silent then m
    else
      let m := { m with
        memory := m.memory.write (address + CommHeader.size) (reply.data.getD []) }
      let replied := match reply.data with
        | some data => .ofNat (CommHeader.size + data.length)
        | none => record.bufferSize
      m.updateCore core (·.reply (reply.size.getD replied) reply.status)

def mmiPorts (command : UInt16) : IoPort MmMachine where
  read16 port m := (0, { m with world := m.world.add (portEvent "read16" port 0) })
  read32 port m := (0, { m with world := m.world.add (portEvent "read32" port 0) })
  write8 port value m :=
    let m := { m with world := m.world.add (portEvent "write8" port value.toNat) }
    if port = command then answerMmi m else m
  write16 port value m := { m with world := m.world.add (portEvent "write16" port value.toNat) }
  write32 port value m := { m with world := m.world.add (portEvent "write32" port value.toNat) }

def requestedTrigger (v : Value) : Option (MmiTrigger MmMachine) := do
  let ports ← MmiPorts.requested v
  match (← v.field? "trigger_error" : Option EfiError) with
  | none => return ports.trigger (mmiPorts ports.command)
  | some e => return { trigger := fun command _ _ m => .error e (noteMm "trigger" [toValue command] m) }

def directHandler (core : UInt64) : SmiManage MmMachine where
  manage recipient area size m :=
    let reply := m.world.world.directReplies.head?.getD .plain
    let m := changeMm (fun w => { w with directReplies := w.directReplies.tail }) m
    let m := noteMm "smi_manage" [.record [("guid", toValue recipient), ("size", toValue size),
      ("data", toValue (area.take size.toNat)), ("in_mm", .flag (m.cores core).inMm)]] m
    let replied := match reply.data with
      | some data => .ofNat data.length
      | none => size
    (⟨reply.data.getD [], reply.size.getD replied, reply.status⟩, m)

def requestedBuffers (v : Value) : Option (List CommBuffer) := do
  let sizes : List (Nat × UInt8) ← (← v.items "buffers" : List Value).mapM fun b => do
    return (← b.field "size", ← b.fieldD "id" 0)
  return sizes.zipIdx.map fun ((size, id), i) => .new (.ofNat (0x21000000 + 0x10000 * i)) id size

def patience : Nat := 1000000

structure CommSetup where
  parts : CommParts MmTrace
  start : Communicator MmTrace

def CommSetup.requested (v : Value) : Option CommSetup := do
  let buffers ← requestedBuffers v
  let trigger ← requestedTrigger v
  let command : Option UInt8 ← v.field? "command"
  let (machine, core) := (Machine.new freeMemory (.new (← MmWorld.requested v freeMemory))).newCore
  let machine := machine.updateCore core fun r =>
    { r with registered := v.flagged "registered", inMm := v.flagged "in_mm" }
  return {
    parts := {
      core
      access := smramAccess
      executor := if ← v.fieldD "executor" true then some (trigger.executor command) else none
      direct := if v.flagged "direct" then some (directHandler core) else none
      patience }
    start := .new buffers machine }

structure CommBench where
  comm : Communicator MmTrace
  copies : List CommBuffer

namespace CommBench

def onComm {ε α : Type} [Problem ε] [ToValue α] (x : Step (Communicator MmTrace) ε α) (b : CommBench) :
    Answer × CommBench :=
  let (answer, comm) := Answer.ofStep x b.comm
  (answer, { b with comm })

def onMachine (f : MmMachine → MmMachine) (b : CommBench) : CommBench :=
  { b with comm := { b.comm with machine := f b.comm.machine } }

def copy? (b : CommBench) (op : Value) : Option CommBuffer := do
  let id : UInt8 ← op.fieldD "id" 0
  b.copies.find? (·.id = id)

def prepare (b : CommBench) (copy : CommBuffer) (recipient : Guid) (data : Bytes) :
    Answer × CommBench :=
  let (copy, memory) := copy.reset b.comm.machine.memory
  let put (copy : CommBuffer) (memory : Memory) : CommBench :=
    { (b.onMachine fun m => { m with memory }) with
      copies := Communicator.putBuffer copy b.copies }
  match copy.setRecipient recipient with
  | .error e => (.ok (describe e), put copy memory)
  | .ok copy =>
    match copy.setMessage memory data with
    | .error e => (.ok (describe e), put copy memory)
    | .ok (copy, memory) => (.success (toValue copy.requestSize), put copy memory)

def step (p : CommParts MmTrace) (op : Value) (b : CommBench) : Option (Answer × CommBench) := do
  let id : UInt8 ← op.fieldD "id" 0
  let done (b : CommBench) : Answer × CommBench := (Answer.success (), b)
  match (← op.field "do" : String) with
  | "communicate" =>
    return onComm (Communicator.communicate p id (← op.field "data") (← op.field "guid")) b
  | "signal_to" => return onComm (Communicator.signal p (← op.field "guid") (← op.field "data")) b
  | "dispatch" => return onComm (Communicator.runDispatcher p) b
  | "raw" =>
    match Communicator.sendRaw p id (← op.field "size") b.comm with
    | .ok (status, size) comm =>
      return (.ok (.record [("status", toValue status), ("size", toValue size)]), { b with comm })
    | .error (.halt h) comm => return (.error h, { b with comm })
  | "prepare" => return b.prepare (← b.copy? op) (← op.field "guid") (← op.field "data")
  | "poke" =>
    let address := (← b.copy? op).start + (← op.field "offset")
    let data : Bytes ← op.field "data"
    return done (b.onMachine fun m => { m with memory := m.memory.write address data })
  | "dump" => return (.success ((← b.copy? op).bytes b.comm.machine.memory), b)
  | "debug" => return (.success (Communicator.debugText p b.comm), b)
  | "gone_virtual" => return done { b with comm := b.comm.setGoneVirtual }
  | "in_mm" =>
    let previous := (b.comm.machine.cores p.core).inMm
    let inMm : Bool ← op.field "value"
    return (.success previous, b.onMachine fun m => m.updateCore p.core fun r => { r with inMm })
  | "register" =>
    return done (b.onMachine fun m => m.updateCore p.core fun r => { r with registered := true })
  | "access" =>
    let window ← b.comm.machine.world.world.window.override op
    return done (b.onMachine (changeMm fun w => { w with window }))
  | "set_buffers" =>
    let buffers ← requestedBuffers op
    return done { b with comm := { b.comm with buffers } }
  | _ => none

def view (p : CommParts MmTrace) (c : Communicator MmTrace) : List (String × Value) :=
  [("trace", c.machine.world.trace), ("mailbox", (c.machine.cores p.core).mailbox),
    ("gone_virtual", .flag c.goneVirtual), ("access", c.machine.world.world.window.report)]

def settle (c : Communicator MmTrace) : Communicator MmTrace :=
  { c with machine := { c.machine with world := c.machine.world.clear } }

def session (v : Value) : Option Value := do
  let s ← CommSetup.requested v
  let (steps, _) ← Session.run (step s.parts) (fun b => view s.parts b.comm)
    (fun b => { b with comm := settle b.comm }) (← v.items "ops") ⟨s.start, s.start.buffers⟩
  return .record [("steps", .list steps)]

end CommBench

/-! ### The gateway -/

structure GatewayBench where
  gateway : Gateway MmTrace
  copies : List CommBuffer

namespace GatewayBench

def isInstalled (g : Guid) (t : MmTrace) : Bool × MmTrace :=
  (t.world.installed.contains g, t.note "is_installed" [toValue g])

def onGateway {α : Type} [ToValue α] (x : Step (Gateway MmTrace) EfiError α) (b : GatewayBench) :
    Answer × GatewayBench :=
  let (answer, gateway) := Answer.ofStep x b.gateway
  (answer, { b with gateway })

def step (p : GatewayParts MmTrace) (hobs : HobList) (op : Value) (b : GatewayBench) :
    Option (Answer × GatewayBench) := do
  match (← op.field "do" : String) with
  | "start" =>
    let hobs := if op.flagged "no_core_data" then hobs else hobs.publishCore p.comm.core
    return onGateway (Gateway.start p hobs (← op.fieldD "system_table" 0)) b
  | "event" => return onGateway (Gateway.signal p (← ofValue? op)) b
  | "install" =>
    let g : Guid ← op.field "guid"
    let b' := CommBench.onMachine (changeMm fun w => { w with installed := g :: w.installed })
      ⟨b.gateway.comm, b.copies⟩
    return (Answer.success (), { b with gateway := { b.gateway with comm := b'.comm } })
  | _ =>
    let (answer, c) ← CommBench.step p.comm op ⟨b.gateway.comm, b.copies⟩
    return (answer, ⟨{ b.gateway with comm := c.comm }, c.copies⟩)

def view (p : GatewayParts MmTrace) (b : GatewayBench) : List (String × Value) :=
  ("locked", .flag b.gateway.locked)
    :: ("subscribed", .list ((List.range (EventRule.all.length + 1)).map fun i =>
      .flag (b.gateway.isSubscribed i)))
    :: CommBench.view p.comm b.gateway.comm

def session (v : Value) : Option Value := do
  let s ← CommSetup.requested v
  let parts : GatewayParts MmTrace := ⟨s.parts, isInstalled⟩
  let (steps, _) ← Session.run (step parts (← v.items "hobs")) (view parts)
    (fun b => { b with gateway := { b.gateway with comm := CommBench.settle b.gateway.comm } })
    (← v.items "ops") ⟨.new s.start, s.start.buffers⟩
  return .record [("steps", .list steps)]

end GatewayBench
end PlatformInit.Bench
