import PlatformInit.Bench.Ports
import PlatformInit.Report.Mm

/-!
Sessions on a table of SMRAM ranges, on a trigger of software MMIs, on a communicate buffer and on a
core record.
-/
set_option autoImplicit false
namespace PlatformInit.Bench

/-! ### Ranges -/

structure TableBench where
  table : SmramTable
  carves : List Carveout
  chipset : Traced Window

namespace TableBench

def access : SmramAccess (Traced Window) := Window.access id fun window _ => window

def onTable {ε α : Type} [Problem ε] [ToValue α] (x : Step SmramTable ε α) (b : TableBench) :
    Answer × TableBench :=
  let (answer, table) := Answer.ofStep x b.table
  (answer, { b with table })

def onChipset {ε α : Type} [Problem ε] [ToValue α] (x : Step (Traced Window) ε α) (b : TableBench) :
    Answer × TableBench :=
  let (answer, chipset) := Answer.ofStep x b.chipset
  (answer, { b with chipset })

def onBoth {ε α : Type} [Problem ε] [ToValue α] (x : Step (SmramTable × Traced Window) ε α)
    (b : TableBench) : Answer × TableBench :=
  let (answer, table, chipset) := Answer.ofStep x (b.table, b.chipset)
  (answer, { b with table, chipset })

def carve (index : Nat) (size alignment : UInt64) (b : TableBench) : Answer × TableBench :=
  match SmramTable.carve index size alignment b.table with
  | .ok c table => (Answer.success c, { b with table, carves := b.carves ++ [c] })
  | .error (.error e) table => (.ok (describe e), { b with table })
  | .error (.halt h) table => (.error h, { b with table })

def claim? (op : Value) (b : TableBench) : Option Carveout := do
  match (← op.field? "custom" : Option Carveout) with
  | some c => return c
  | none => b.carves[(← op.fieldD "carve" 0 : Nat)]?

def step (op : Value) (b : TableBench) : Option (Answer × TableBench) := do
  let pure {α : Type} [ToValue α] (x : Except Halt α) : Option (Answer × TableBench) :=
    return (x.map Value.success, b)
  match (← op.field "do" : String) with
  | "select" => pure b.table.selectRange
  | "cache_range" => pure (b.table.cacheRange (← op.field "index"))
  | "carve" => return b.carve (← op.field "index") (← op.field "size") (← op.field "align")
  | "commit" => return onTable (SmramTable.commit (← claim? op b)) b
  | "restore" => return onTable (SmramTable.restore (← claim? op b)) b
  | "open" => return onBoth (SmramTable.openAll access) b
  | "close" => return onBoth (SmramTable.closeAll access) b
  | "open_window" => return onChipset access.openWindow b
  | "close_window" => return onChipset access.closeWindow b
  | "lock_window" => return onChipset access.lockWindow b
  | "block" =>
    return (Answer.success (Value.record [("bytes", toValue (DescriptorBlock.encode b.table.ranges)),
      ("len", .count b.table.ranges.length), ("empty", .flag b.table.ranges.isEmpty)]), b)
  | "access" =>
    let window ← b.chipset.world.override op
    return (Answer.success (), { b with chipset := b.chipset.change fun _ => window })
  | _ => none

def view (b : TableBench) : List (String × Value) :=
  [("ranges", toValue b.table), ("trace", b.chipset.trace), ("access", b.chipset.world.report)]

def session (v : Value) : Option Value := do
  let table ← match (← v.field? "ranges" : Option (List SmramRange)) with
    | some ranges => pure (Except.ok ⟨ranges⟩)
    | none => do pure (SmramTable.ofHobs (← v.items "hobs"))
  match table with
  | .error _ => return .record [("table", toValue table)]
  | .ok t =>
    let (steps, _) ← Session.run step view (fun b => { b with chipset := b.chipset.clear })
      (← v.items "ops") ⟨t, [], .new (← Window.closed.override v)⟩
    return .record [("table", toValue table), ("steps", .list steps)]

end TableBench

/-! ### Software MMIs -/

namespace MmiBench

def platformInit (v : Value) : Option (Option (Attempt (Traced PortScript) EfiError Unit)) := do
  match v.get? "platform" with
  | none => return none
  | some (.text "q35") => return some (Q35.enableMmi scriptedPorts)
  | some (.text "ok") => return some fun t => .ok () (t.note "platform_init" [])
  | some e =>
    let e : EfiError ← ofValue? e
    return some fun t => .error e (t.note "platform_init" [])

def step (trigger : MmiTrigger (Traced PortScript)) (op : Value) (t : Traced PortScript) :
    Option (Answer × Traced PortScript) := do
  return Answer.ofStep (Step.ofAttempt (trigger.trigger (← op.field? "command")
    (op.flagged "periodic") (← op.fieldD "interval" 0))) t

def session (v : Value) : Option Value := do
  let ports ← MmiPorts.requested v
  match ports.start scriptedPorts (← platformInit v) (.new (← v.items "reads")) with
  | .error e t => return .record [("manager", describe e), ("trace", t.trace)]
  | .ok trigger t =>
    let (steps, _) ← Session.run (step trigger) (fun t => [("trace", t.trace)]) Traced.clear
      (← v.items "ops") t.clear
    return .record [("manager", .success ()), ("trace", t.trace), ("steps", .list steps)]

end MmiBench

/-! ### Buffers -/

namespace BufferBench

def step (op : Value) (s : CommBuffer × Memory) : Option (Answer × (CommBuffer × Memory)) := do
  let (b, m) := s
  match (← op.field "do" : String) with
  | "info" =>
    match b.setRecipient (← op.field "guid") with
    | .error e => return (.ok (describe e), s)
    | .ok b => return (Answer.success (), (b, m))
  | "message" =>
    match b.setMessage m (← op.field "data") with
    | .error e => return (.ok (describe e), s)
    | .ok s => return (Answer.success (), s)
  | "reset" => return (Answer.success (), b.reset m)
  | "header" => return (Answer.success (b.header? m), s)
  | "read" => return (Answer.success (b.message m (← op.field "length")), s)
  | "fill" =>
    let bytes := List.replicate b.capacity (← op.field "value")
    return (Answer.success (), (b, b.writeMessage m bytes))
  | "debug" => return (Answer.success (b.debugText m), s)
  | _ => none

def view (s : CommBuffer × Memory) : List (String × Value) :=
  let (b, m) := s
  [("bytes", toValue (b.bytes m)), ("request_size", .count b.requestSize),
    ("capacity", .count b.capacity), ("len", .count b.length), ("empty", .flag (b.length = 0)),
    ("id", toValue b.id), ("address", toValue b.address)]

def session (v : Value) : Option Value := do
  let b := CommBuffer.new 0x21000000 (← v.fieldD "id" 0) (← v.field "size")
  let (steps, _) ← Session.run step view id (← v.items "ops") (b, Memory.blank)
  return .record [("steps", .list steps), ("message_offset", .count CommHeader.size)]

end BufferBench

/-! ### Core records -/

namespace CoreBench

def step (op : Value) (r : CoreRecord) : Option (Answer × CoreRecord) := do
  let done (r : CoreRecord) : Answer × CoreRecord := (Answer.success (), r)
  match (← op.field "do" : String) with
  | "post" => return done (r.post (← op.field "buffer") (← op.field "size"))
  | "reply" => return done (r.reply (← op.field "size") (← op.field "status"))
  | "clear" => return done r.clear
  | "register" => return done { r with registered := true }
  | "in_mm" => return (Answer.success r.inMm, { r with inMm := ← op.field "value" })
  | "image" =>
    return done { r with image := ⟨← op.field "base", ← op.field "size", ← op.field "entry"⟩ }
  | "ranges" => return done { r with ranges := (← op.field "address", ← op.field "count") }
  | "bfv" => return done { r with bootVolume := ← op.field "address" }
  | _ => none

def view (r : CoreRecord) : List (String × Value) :=
  [("mailbox", r.mailbox), ("image", toValue r.image), ("ranges", toValue r.ranges),
    ("bfv", toValue r.bootVolume)]

def session (v : Value) : Option Value := do
  let (steps, _) ← Session.run step view id (← v.items "ops") CoreRecord.new
  return .record [("steps", .list steps)]

def push (kind : String) (s : HobList × Machine Unit × Option UInt64) :
    Option (HobList × Machine Unit × Option UInt64) := do
  let (hobs, m, first) := s
  let raw (data : Bytes) := (hobs ++ [Hob.guidExtension Guid.mmCoreData data], m, first)
  match kind with
  | "published" =>
    let (m, core) := m.newCore
    return (hobs.publishCore core, m, some (first.getD core))
  | "null" => return raw (le64 0)
  | "short" => return raw (List.replicate 7 0)
  | "empty" => return raw []
  | "bad_signature" => return raw (le64 0x1000)
  | "unrelated" => return (hobs ++ [Hob.guidExtension Guid.systemTableInfo (le64 0)], m, first)
  | _ => none

def lookup (v : Value) : Option Value := do
  let kinds : List String ← v.items "hobs"
  let (hobs, m, first) ← kinds.foldlM (fun s kind => push kind s) ([], .new 0x100000 (), none)
  let hobs ← if v.flagged "reserialize" then (HobList.parse hobs.toBytes).toOption else some hobs
  return match hobs.findCore m.cores with
    | .error e => describe e
    | .ok core => .success (Value.record [("same", .flag (first = some core)),
        ("mailbox", (m.cores core).mailbox)])

end CoreBench
end PlatformInit.Bench
