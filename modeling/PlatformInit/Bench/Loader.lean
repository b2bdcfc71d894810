import PlatformInit.Bench.Trace
import PlatformInit.Report.Loader

/-!
Scripted component interfaces and a scripted processor for the boot loader.
-/
set_option autoImplicit false
namespace PlatformInit.Bench

structure GateReply where
  status : Status
  hobList : UInt64
  poke : Option (Nat × Bytes)

def GateReply.silent : GateReply := ⟨0, 0, none⟩

instance : OfValue GateReply where
  ofValue? v := do
    return ⟨← v.fieldD "status" 0, ← v.fieldD "hob_list" 0, ← v.field? "poke"⟩

def GateReply.toReply (r : GateReply) (upd : Bytes) : FspReply where
  status := r.status
  hobList := r.hobList
  upd :=
    match r.poke with
    | none => upd
    | some (offset, part) => (upd.overwrite? offset part).getD upd

def callEvent (address : UInt64) (request : FspCall) : Value :=
  .list (.text "call" :: toValue address :: match request with
    | .memoryInit upd => [.text "memory_init", toValue upd]
    | .tempRamExit => [.text "temp_ram_exit"]
    | .siliconInit upd => [.text "silicon_init", toValue upd]
    | .notifyPhase phase => [.text "notify_phase", toValue phase.code])

def phaseEvent (address : UInt64) (request : FspCall) : Value :=
  match request with
  | .memoryInit upd | .siliconInit upd =>
    .list [.text "call", toValue address, .text "notify_phase", .text (hexText (leValue (upd.take 4)))]
  | .tempRamExit | .notifyPhase _ => callEvent address request

/-- A gate that takes its replies from a list in the world. It tells calls apart as a component does:
whatever arrives at the component's entry point for phases is about a phase, and leaves a block as it
is. -/
def scriptedGate {ω : Type} (c : FspComponent) (replies : ω → List GateReply)
    (put : List GateReply → ω → ω) : CallGate (Traced ω) where
  call address request t :=
    let queue := replies t.world
    let reply := queue.head?.getD .silent
    let t := t.change (put queue.tail)
    if c.entry? c.header.notifyPhase = some address then
      ({ reply with poke := none }.toReply request.upd, t.add (phaseEvent address request))
    else (reply.toReply request.upd, t.add (callEvent address request))

/-! ### One component -/

abbrev ComponentWorld := Traced (List GateReply)

def componentStep (c : FspComponent) (op : Value) (t : ComponentWorld) :
    Option (Answer × ComponentWorld) := do
  let gate : CallGate ComponentWorld := scriptedGate c id fun replies _ => replies
  let onBlock {α : Type} [ToValue α] (x : Step (Bytes × ComponentWorld) EfiError α) :
      Option (Answer × ComponentWorld) := do
    let upd : Bytes ← op.field "upd"
    let (answer, upd, t) := Answer.ofStep x (upd, t)
    return (answer.map fun status => .record [("status", status), ("upd", toValue upd)], t)
  match (← op.field "do" : String) with
  | "memory_init" => onBlock (c.memoryInit gate)
  | "silicon_init" => onBlock (c.siliconInit gate)
  | "temp_ram_exit" => return Answer.ofStep (c.tempRamExit gate) t
  | "notify_phase" => return Answer.ofStep (c.notifyPhase gate (← op.field "phase")) t
  | _ => none

/-! ### The boot loader -/

structure BootWorld where
  memoryReplies : List GateReply
  siliconReplies : List GateReply

abbrev BootTrace := Traced BootWorld

def bootCpu {ω : Type} (stubBase : UInt64) (selector : UInt16) (words : List (UInt64 × UInt32)) :
    StageCpu (Traced ω) where
  loadTables _ gdt idt t := t.note "load_tables"
    [toValue gdt.base, .count gdt.limit.toNat, toValue idt.base, .count idt.limit.toNat]
  stub _ vector := stubBase + Exception.stubSize * vector.toUInt64
  codeSelector _ := selector
  readWord address t :=
    let value := ((words.find? (·.1 = address)).map (·.2)).getD 0
    (value, t.note "read_u32" [toValue address, toValue value])
  enterPayload entry hobList stackSize t :=
    t.note "enter_payload" [toValue entry, toValue hobList, toValue stackSize]

def requestedCpu {ω : Type} (v : Value) : Option (StageCpu (Traced ω)) := do
  return bootCpu (← v.fieldD "stub_base" 0xFFF90000) (← v.fieldD "selector" Gdt.code64Selector)
    (← v.items "memory").reverse

def loaderContext : UInt64 := 0x20001000
def loaderTables : StageTables := ⟨0x20002000, 0x20003000⟩

def loaderStep (p : LoaderParts BootTrace) (op : Value) (l : Loader BootTrace) :
    Option (Answer × Loader BootTrace) := do
  match (← op.field "do" : String) with
  | "install" =>
    let (answer, l) := Answer.ofStep
      (Loader.installTemporary p loaderContext loaderTables (← op.field "stack_top")) l
    let word := Value.record [("ldr_global", toValue (l.memory.u64 loaderTables.idt.toNat))]
    return (answer.map fun _ => .success word, l)
  | "memory_init" => return Answer.ofStep (Loader.memoryInit p) l
  | "relocate" =>
    let hobs : HobList ← op.items "hobs"
    let step : Step (Loader BootTrace) Empty Value := do
      let layout ← Loader.relocate p hobs
      let idt := Idt.load (← get).memory layout.idt.toNat
      return .record [("stack", toValue layout.switchStackTop), ("idt", toValue idt)]
    return Answer.ofStep step l
  | "temp_ram_exit" => return Answer.ofStep (Loader.tempRamExit p) l
  | "silicon_init" => return Answer.ofStep (Loader.siliconInit p) l
  | "notify_phases" => return Answer.ofStep (Loader.notifyPhases p) l
  | "hand_off" => return Answer.ofStep (Loader.handOff p) l
  | "continue" => return Answer.ofStep (Loader.continueInMemory p) l
  | _ => none

def loaderView (l : Loader BootTrace) : List (String × Value) :=
  [("trace", l.world.trace), ("stage", .text l.stage.name), ("hob_list", toValue l.hobList),
    ("permanent", .flag l.store.isPermanent), ("address", toValue l.store.address),
    ("context", toValue (l.store.get l.memory))]

def loaderBlocks (l : Loader BootTrace) : Value :=
  match l.store.get l.memory with
  | .error _ => .null
  | .ok c => .list [toValue (c.memoryUpd.map l.arena.get), toValue (c.siliconUpd.map l.arena.get)]

def loaderSession (v : Value) (memoryComponent siliconComponent : FspComponent) : Option Value := do
  let parts : LoaderParts BootTrace :=
    { config := ← LoaderConfig.requested v
      memoryComponent
      memoryGate := scriptedGate memoryComponent BootWorld.memoryReplies
        fun rs w => { w with memoryReplies := rs }
      siliconComponent
      siliconGate := scriptedGate siliconComponent BootWorld.siliconReplies
        fun rs w => { w with siliconReplies := rs }
      cpu := ← requestedCpu v }
  let world : BootTrace := .new ⟨← v.items "fspm_gate", ← v.items "fsps_gate"⟩
  let (steps, l) ← Session.run (loaderStep parts) loaderView
    (fun l => { l with world := l.world.clear }) (← v.items "ops") (Loader.start .blank world)
  return .record [("steps", .list steps), ("blocks", loaderBlocks l)]

end PlatformInit.Bench
