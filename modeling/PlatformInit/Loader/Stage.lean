import PlatformInit.Context.Store
import PlatformInit.Cpu.Stage
import PlatformInit.Fsp.Component
import PlatformInit.Fsp.Upd
import PlatformInit.Hob.Basic
import PlatformInit.Loader.Pool
import PlatformInit.Word.Hexadecimal

/-!
The boot loader's stages, from temporary memory to the payload.

The stages follow one another in one order. A step out of order, and a call that fails, stop the
machine.
-/
set_option autoImplicit false
namespace PlatformInit

inductive Stage where
  | preMemory
  | memoryInitCalled
  | tempRamTornDown
  | siliconInitCalled
  | notifyPhase (index : Nat)
  | handoffToPayload
  deriving DecidableEq

namespace Stage

def name : Stage → String
  | preMemory => "PreMemory"
  | memoryInitCalled => "MemoryInitCalled"
  | tempRamTornDown => "TempRamTornDown"
  | siliconInitCalled => "SiliconInitCalled"
  | notifyPhase i => "NotifyPhase(" ++ toString i ++ ")"
  | handoffToPayload => "HandoffToPayload"

end Stage

structure Loader (ω : Type) where
  stage : Stage
  hobList : UInt64
  store : ContextStore
  arena : ConfigArena
  memory : Memory
  world : ω

structure LoaderParts (ω : Type) where
  config : LoaderConfig
  memoryComponent : FspComponent
  memoryGate : CallGate ω
  siliconComponent : FspComponent
  siliconGate : CallGate ω
  cpu : StageCpu ω

namespace Loader
variable {ω ε α : Type}

def start (memory : Memory) (world : ω) : Loader ω := ⟨.preMemory, 0, .empty, .empty, memory, world⟩

def onWorld (x : Step ω ε α) : Step (Loader ω) ε α :=
  Step.focus Loader.world (fun w l => { l with world := w }) x

def effect (f : ω → ω) : Step (Loader ω) ε Unit :=
  modify fun l => { l with world := f l.world }

def advance (current next : Stage) : Step (Loader ω) Empty Unit := do
  let l ← get
  if l.stage = current then set { l with stage := next }
  else Step.fatal ("stage " ++ l.stage.name ++ " cannot move to " ++ next.name)

def updateContext (f : GlobalContext → GlobalContext) : Step (Loader ω) Empty Unit := do
  let l ← get
  let memory ← Step.valueOrFatal (fun e : ContextError => "global context unavailable: " ++ e.name)
    (l.store.update l.memory f)
  set { l with memory }

/-- Runs `x` on the block that `h` names and on the world. -/
def onBlock (component : String) (h : ConfigHandle) (x : Step (Bytes × ω) ε α) :
    Step (Loader ω) ε α := fun l =>
  match l.arena.get h with
  | .error e =>
    .error (.halt (.fatal (component ++ " UPD handle does not resolve: " ++ e.name))) l
  | .ok block =>
    let put (s : Bytes × ω) : Loader ω :=
      { l with arena := (l.arena.modify h fun _ => s.1).toOption.getD l.arena, world := s.2 }
    match x (block, l.world) with
    | .ok a s => .ok a (put s)
    | .error e s => .error e (put s)

def insertBlock (block : Bytes) : Step (Loader ω) ε ConfigHandle := fun l =>
  let (arena, h) := l.arena.insert block
  .ok h { l with arena }

def loadTables (p : LoaderParts ω) (tables : StageTables) : Step (Loader ω) ε Unit :=
  modify fun l => { l with world := tables.load p.cpu l.memory l.world }

/-- Builds the context of temporary memory at `context` and loads the descriptor tables. -/
def installTemporary (p : LoaderParts ω) (context : UInt64) (tables : StageTables)
    (stackTop : UInt32) : Step (Loader ω) Empty Unit := do
  let l ← get
  if l.stage ≠ .preMemory then
    Step.fatal ("temporary context installed in stage " ++ l.stage.name)
  else
    let initial ← Step.ofHalting (GlobalContext.temporary stackTop p.config.temporaryPoolSize)
    let memory := tables.prepare context p.cpu l.world
      (GlobalContext.store l.memory context { initial with printMask := p.config.printMask })
    set { l with memory }
    loadTables p tables
    let store ← Step.valueOrFatal
      (fun e : ContextError => "global context install failed: " ++ e.name)
      (l.store.install memory context)
    modify fun l => { l with store }

/-- The memory component's default block with the boot loader's own fields, if it is acceptable. -/
def memoryDefaults (c : FspComponent) : Except BootError Bytes :=
  let (upd, written) := Upd.applyLoaderDefaults c.defaultUpd
  (written.bind fun _ => Upd.checkMemory upd).map fun _ => upd

def memoryInit (p : LoaderParts ω) : Step (Loader ω) Empty UInt64 := do
  advance .preMemory .memoryInitCalled
  let upd ← Step.valueOrFatal (fun e : BootError => "FSP-M UPD rejected: " ++ e.name)
    (memoryDefaults p.memoryComponent)
  let h ← insertBlock upd
  updateContext fun c => { c with memoryUpd := some h }
  let hobList ← Step.orFatal (fun e : EfiError => "FspMemoryInit failed: " ++ e.name)
    (onBlock "FSP-M" h (p.memoryComponent.memoryInit p.memoryGate))
  modify fun l => { l with hobList }
  return hobList

def layoutBelow (hobs : HobList) (config : LoaderConfig) : Except Halt PoolLayout :=
  match hobs.resourceOf? Guid.reservedMemory with
  | none => .error (.fatal "FSP reserved memory resource not found")
  | some r =>
    match PoolLayout.compute r.start r.length config with
    | .ok layout => .ok layout
    | .error (.error e) =>
      .error (.fatal ("loader pool does not fit below " ++ hexText r.start.toNat ++ ": " ++ e.name))
    | .error (.halt h) => .error h

def moveContext (p : LoaderParts ω) (hobs : HobList) : Step (Loader ω) Empty PoolLayout := do
  let l ← get
  if l.stage ≠ .memoryInitCalled ∨ l.store.isPermanent then
    Step.fatal ("context relocation in stage " ++ l.stage.name)
  else
    let layout ← Step.ofHalting (layoutBelow hobs p.config)
    let tables : StageTables := ⟨layout.gdt, layout.idt⟩
    let memory := tables.prepare layout.context p.cpu l.world l.memory
    set { l with memory }
    if layout.context = 0 then Step.fatal "loader pool carve produced a null context"
    else
      let (store, memory) ← Step.valueOrFatal
        (fun e : ContextError => "global context relocation failed: " ++ e.name)
        (l.store.relocate memory layout.context (layout.apply l.hobList))
      set { l with store, memory }
      return layout

/-- Moves the context and the descriptor tables into the pool, and answers the layout with the stack
to switch to. The copy of the context is active before the new tables are loaded. -/
def relocate (p : LoaderParts ω) (hobs : HobList) : Step (Loader ω) Empty PoolLayout := do
  let layout ← moveContext p hobs
  loadTables p ⟨layout.gdt, layout.idt⟩
  return layout

def tempRamExit (p : LoaderParts ω) : Step (Loader ω) Empty Unit := do
  if (← get).store.isPermanent then
    advance .memoryInitCalled .tempRamTornDown
    Step.orFatal (fun e : EfiError => "FspTempRamExit failed: " ++ e.name)
      (onWorld (p.memoryComponent.tempRamExit p.memoryGate))
  else Step.fatal "temporary RAM teardown while the global context still lives in it"

def siliconInit (p : LoaderParts ω) : Step (Loader ω) Empty Unit := do
  advance .tempRamTornDown .siliconInitCalled
  let upd := p.siliconComponent.defaultUpd
  Step.valueOrFatal (fun e : BootError => "FSP-S UPD rejected: " ++ e.name) (Upd.checkSilicon upd)
  let h ← insertBlock upd
  updateContext fun c => { c with siliconUpd := some h }
  Step.orFatal (fun e : EfiError => "FspSiliconInit failed: " ++ e.name)
    (onBlock "FSP-S" h (p.siliconComponent.siliconInit p.siliconGate))

def notify (p : LoaderParts ω) (index : Nat) (phase : NotifyPhase) : Step (Loader ω) Empty Unit := do
  advance (if index = 0 then .siliconInitCalled else .notifyPhase (index - 1)) (.notifyPhase index)
  Step.orFatal (fun e : EfiError => "FspNotifyPhase(" ++ phase.name ++ ") failed: " ++ e.name)
    (onWorld (p.siliconComponent.notifyPhase p.siliconGate phase))

def notifyPhases (p : LoaderParts ω) : Step (Loader ω) Empty Unit := do
  notify p 0 .afterPciEnumeration
  notify p 1 .readyToBoot
  notify p 2 .endOfFirmware

def readWord (p : LoaderParts ω) (address : UInt64) : Step (Loader ω) ε UInt32 := fun l =>
  let (value, world) := p.cpu.readWord address l.world
  .ok value { l with world }

/-- Reads the payload's entry point through the slot below the component area and jumps to it. -/
def handOff (p : LoaderParts ω) : Step (Loader ω) Empty Unit := do
  advance (.notifyPhase 2) .handoffToPayload
  let slot ← Step.ofHalting (sub64 p.config.fspAreaBase 4)
  let table ← readWord p slot
  let entry ← readWord p table.toUInt64
  if entry = 0 then Step.fatal "no payload entry point"
  else
    let hobList := (← get).hobList
    effect (p.cpu.enterPayload entry.toUInt64 hobList p.config.payloadStackSize)

def continueInMemory (p : LoaderParts ω) : Step (Loader ω) Empty Unit := do
  tempRamExit p
  siliconInit p
  notifyPhases p
  handOff p

end Loader
end PlatformInit
