import PlatformInit.Cache.Policy
import PlatformInit.Mm.Communicator
import PlatformInit.Pe.Loading
import PlatformInit.Smram.Table
import PlatformInit.Volume.File

/-!
The initial program loader (IPL) of management mode (MM).

It loads the MM core from a firmware volume into SMRAM, runs it once, and asks it to dispatch its
drivers. A machine without a usable range or without a core goes on without MM: every failure is
reported, and SMRAM is closed again.
-/
set_option autoImplicit false
namespace PlatformInit

structure MappedVolume where
  base : UInt64
  bytes : Bytes

namespace MappedVolume

def coreFile : UInt8 := FirmwareFile.mmCoreStandalone

def imageSection : UInt8 := Section.pe32

def ofHobs (m : Memory) (hobs : HobList) : List MappedVolume :=
  hobs.filterMap fun
    | .volume base length =>
      if base = 0 ∨ length = 0 then none else some ⟨base, m.read base.toNat length.toNat⟩
    | _ => none

def core? (v : MappedVolume) : Except Halt (Option Bytes) :=
  match Volume.read v.bytes with
  | .error _ => .ok none
  | .ok volume =>
    match volume.findSection coreFile imageSection with
    | .ok image => .ok (some image)
    | .error (.error _) => .ok none
    | .error (.halt h) => .error h

/-- The first image of an MM core, and the base of the volume that holds it. -/
def findCore : List MappedVolume → Fallible EfiError (UInt64 × Bytes)
  | [] => Fallible.fail .notFound
  | v :: rest => do
    match ← v.core? with
    | some image => return (v.base, image)
    | none => findCore rest

end MappedVolume

structure IplConfig where
  /-- Uses the place recorded in the image when it lies in the code region of SMRAM. -/
  fixedAddress : Bool := false
  fixedPages : UInt32 := 0

structure CoreLauncher (σ : Type) where
  writeImage : UInt64 → Bytes → Attempt σ EfiError Unit
  invalidate : UInt64 → UInt64 → σ → σ
  startCore : UInt64 → Bytes → σ → Status × σ

structure IplParts (ω : Type) where
  config : IplConfig
  reader : PeReader
  access : SmramAccess ω
  cache : CacheController ω
  launcher : CoreLauncher (Machine ω)

structure IplState (ω : Type) where
  table : SmramTable
  machine : Machine ω

namespace Ipl
variable {ω ε α : Type}

def onTable (x : Step SmramTable ε α) : Step (IplState ω) ε α :=
  Step.focus IplState.table (fun t s => { s with table := t }) x

def onMachine (x : Step (Machine ω) ε α) : Step (IplState ω) ε α :=
  Step.focus IplState.machine (fun m s => { s with machine := m }) x

def onWindow (x : Step (SmramTable × ω) ε α) : Step (IplState ω) ε α :=
  Step.focus (fun s : IplState ω => (s.table, s.machine.world))
    (fun t s => ⟨t.1, { s.machine with world := t.2 }⟩) x

/-- The place recorded in the image, if it is used and lies in the code region. -/
def fixedPlace (c : IplConfig) (p : PeImage) (r : SmramRange) : Except Halt (Option UInt64) :=
  match if c.fixedAddress then p.fixedLoadOffset else none with
  | none => .ok none
  | some offset =>
    let address := r.cpuStart + offset
    if address < r.cpuStart then .ok none
    else (add64 r.cpuStart (pagesToSize c.fixedPages.toUInt64)).map fun stop =>
      if address < stop then some address else none

def publishRanges (core : UInt64) : Step (IplState ω) ε Unit :=
  modify fun s =>
    let (m, block) := s.machine.store (DescriptorBlock.encode s.table.ranges)
    { s with machine := m.updateCore core fun r =>
        { r with ranges := (block + .ofNat DescriptorBlock.start, .ofNat s.table.ranges.length) } }

def updateCore (core : UInt64) (f : CoreRecord → CoreRecord) : Step (Machine ω) ε Unit :=
  modify fun m => m.updateCore core f

def place (p : PeImage) (image : Bytes) (address : UInt64) : Fallible EfiError Bytes :=
  let placing : Step Bytes PeError Unit := do
    p.load image
    p.relocate address
  match placing (List.replicate p.sizeOfImage.toNat 0) with
  | .ok () loaded => .ok loaded
  | .error e _ => .error (e.mapError PeError.toEfi)

def placeAndStart (parts : IplParts ω) (p : PeImage) (image : Bytes) (destination : UInt64)
    (hobs : HobList) (core : UInt64) : Step (Machine ω) EfiError Unit := do
  match alignUp destination (max p.sectionAlignment.toUInt64 1) with
  | .error _ => Step.fail .loadError
  | .ok base =>
    let loaded ← Step.ofFallible (place p image base)
    let size := UInt64.ofNat loaded.length
    Step.ofAttempt (parts.launcher.writeImage base loaded)
    modify (parts.launcher.invalidate base size)
    let entryPoint ← Step.ofHalting (add64 base p.entryPoint.toUInt64)
    updateCore core fun r => { r with image := ⟨base, size, entryPoint⟩ }
    let m ← get
    let (status, m) := parts.launcher.startCore entryPoint hobs.toBytes m
    set m
    Step.ofExcept status.toExcept

/-- The place for the image: the one that it was built for, or one carved from the range. -/
def choosePlace (c : IplConfig) (p : PeImage) (index : Nat) (r : SmramRange) :
    Step SmramTable EfiError (UInt64 × Option Carveout) := do
  match ← Step.ofHalting (fixedPlace c p r) with
  | some address => return (address, none)
  | none => Step.mapError BootError.toEfi do
    let carved ← SmramTable.carve index p.sizeOfImage.toUInt64 p.sectionAlignment.toUInt64
    SmramTable.commit carved
    return (carved.destination, some carved)

def giveUp (core : UInt64) (carved : Option Carveout) : Step (IplState ω) EfiError Unit := do
  match carved with
  | none => pure ()
  | some c => onTable (Step.mapError BootError.toEfi (SmramTable.restore c))
  onMachine (updateCore core fun r => { r with ranges := (0, 0) })

def executeCore (parts : IplParts ω) (index : Nat) (range : SmramRange) (hobs : HobList)
    (volumes : List MappedVolume) (core : UInt64) : Step (IplState ω) EfiError Unit := do
  let (volume, image) ← Step.ofFallible (MappedVolume.findCore volumes)
  let p ← Step.mapError PeError.toEfi (Step.ofExcept (parts.reader.parse image))
  let (destination, carved) ← onTable (choosePlace parts.config p index range)
  publishRanges core
  onMachine (updateCore core fun r => { r with bootVolume := volume })
  match ← Step.attempt (onMachine (placeAndStart parts p image destination hobs core)) with
  | .ok () => return ()
  | .error e =>
    giveUp core carved
    Step.fail e

def closeWindow (parts : IplParts ω) : Step (IplState ω) EfiError Unit :=
  Step.ignoringError (onWindow (SmramTable.closeAll parts.access))

/-- Makes the region around a range write-back; an error is passed over. -/
def cacheRange (parts : IplParts ω) (index : Nat) : Step (IplState ω) EfiError Unit := do
  match ← Step.ofHalting ((← get).table.cacheRange index) with
  | none => return ()
  | some (base, length) =>
    Step.ignoringError (onMachine (Machine.onWorld (parts.cache.setAttributes base length .writeBack)))

def loadInto (parts : IplParts ω) (hobs : HobList) (volumes : List MappedVolume) (core : UInt64) :
    Step (IplState ω) EfiError Unit := do
  onWindow (SmramTable.openAll parts.access)
  let table := (← get).table
  let index ← Step.ofHalting table.selectRange
  match index, index.bind (table.ranges[·]?) with
  | some index, some range =>
    cacheRange parts index
    match ← Step.attempt (executeCore parts index range hobs volumes core) with
    | .ok () => return ()
    | .error _ =>
      closeWindow parts
      Step.fail EfiError.unsupported
  | _, _ =>
    closeWindow parts
    Step.fail EfiError.unsupported

/-- Loads the MM core and runs it. The record that is shared with the core is published first; answers
its address. -/
def loadCore (parts : IplParts ω) (volumes : List MappedVolume) :
    Step (HobList × Machine ω) EfiError UInt64 := fun (hobs, machine) =>
  let (machine, core) := machine.newCore
  let hobs := hobs.publishCore core
  match SmramTable.ofHobs hobs with
  | .error e => .error (.error e.toEfi) (hobs, machine)
  | .ok table =>
    match loadInto parts hobs volumes core ⟨table, machine⟩ with
    | .ok () s => .ok core (hobs, s.machine)
    | .error e s => .error e (hobs, s.machine)

def command : UInt8 := 0

/-- Loads the MM core, runs it, and lets it dispatch its drivers; an error of the dispatch is passed
over. -/
def run (parts : IplParts ω) (volumes : List MappedVolume) (buffers : List CommBuffer)
    (trigger : MmiTrigger (Machine ω)) (patience : Nat) : Step (HobList × Machine ω) EfiError UInt64 := do
  let core ← loadCore parts volumes
  let comm : CommParts ω := ⟨core, parts.access, some (trigger.executor (some command)), none, patience⟩
  let (hobs, machine) ← get
  match Communicator.runDispatcher comm (Communicator.new buffers machine) with
  | .ok _ c => set (hobs, c.machine)
  | .error (.error _) c => set (hobs, c.machine)
  | .error (.halt h) c =>
    set (hobs, c.machine)
    Step.stop h
  return core

end Ipl
end PlatformInit
