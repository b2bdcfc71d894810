import PlatformInit.Cache.Policy
import PlatformInit.Context.Store
import PlatformInit.Cpu.AddressBits
import PlatformInit.MemoryMap.Layout
import PlatformInit.MemoryMap.Totals
import PlatformInit.Volume.Report

/-!
The sequence run once permanent memory has been found.

The processor record is published, the configuration blocks move to a new generation of the arena,
memory initialization is reported as done, the cache policy is programmed if temporary memory is
being torn down, and the volumes of the image are reported. Every failure stops the machine.
-/
set_option autoImplicit false
namespace PlatformInit

inductive ApiIndex where
  | tempRamInit
  | fspInit
  | notifyPhase
  | memoryInit
  | tempRamExit
  | siliconInit
  deriving DecidableEq

namespace ApiIndex

def all : List ApiIndex := [tempRamInit, fspInit, notifyPhase, memoryInit, tempRamExit, siliconInit]

def code : ApiIndex → UInt8
  | tempRamInit => 0
  | fspInit => 1
  | notifyPhase => 2
  | memoryInit => 3
  | tempRamExit => 4
  | siliconInit => 5

def ofCode? (n : UInt8) : Option ApiIndex := all.find? (·.code == n)

end ApiIndex

structure ApiCallback (ω : Type) where
  callingIndex : ω → ApiIndex × ω
  memoryInitDone : HobList → ω → ω
  tempRamExitDone : ω → ω

/-- The image that is searched for volumes. Configuration blocks of the memory component are kept
to exactly `configSize` bytes. -/
structure FspImage where
  base : UInt64
  bytes : Bytes
  configSize : Nat

structure DiscoverySummary where
  addressBits : UInt8
  topOfLowMemory : UInt64
  highMemory : UInt64
  cacheReprogrammed : Bool
  volumes : Nat
  deriving DecidableEq

structure Discovery (ω : Type) where
  hobs : HobList
  store : ContextStore
  memory : Memory
  arena : ConfigArena
  world : ω

namespace Discovery
variable {ω : Type}

structure Platform (ω : Type) where
  cpu : CpuId ω
  cache : CacheController ω
  callback : ApiCallback ω

def onWorld {ε α : Type} (x : Step ω ε α) : Step (Discovery ω) ε α :=
  Step.focus Discovery.world (fun w s => { s with world := w }) x

def publish (hobs : HobList) : Step (Discovery ω) Empty Unit :=
  modify fun s => { s with hobs := s.hobs ++ hobs }

/-- The blocks that outlive the move: the memory component's, cut to size, and the silicon
component's in full. -/
def keptBlocks (context : GlobalContext) (arena : ConfigArena) (configSize : Nat) :
    Except Halt (List (ConfigHandle × Nat)) :=
  match context.memoryUpd with
  | none => .error (.fatal "FSP-M UPD was never installed")
  | some memoryUpd =>
    match context.siliconUpd with
    | none => .ok [(memoryUpd, configSize)]
    | some siliconUpd =>
      match arena.get siliconUpd with
      | .ok block => .ok [(memoryUpd, configSize), (siliconUpd, block.length)]
      | .error e => .error (.fatal ("FSP-S UPD handle does not resolve: " ++ e.name))

/-- Copies the configuration blocks into a new generation and makes the context name the copies. -/
def migrateConfig (configSize : Nat) : Step (Discovery ω) Empty Unit := do
  let s ← get
  match s.store.get s.memory with
  | .error e => Step.fatal ("global context unavailable: " ++ e.name)
  | .ok context =>
    let kept ← Step.ofHalting (keptBlocks context s.arena configSize)
    match s.arena.migrate kept with
    | .error e => Step.fatal ("UPD migration failed: " ++ e.name)
    | .ok (arena, handles) =>
      match s.store.update s.memory
          (fun c => { c with memoryUpd := handles[0]?, siliconUpd := handles[1]? }) with
      | .error e => Step.fatal ("global context unavailable: " ++ e.name)
      | .ok memory => set { s with arena, memory }

def reportVolumes (image : FspImage) : Step (Discovery ω) Empty Nat := do
  let volumes := Volume.report image.base image.bytes 0
  publish (volumes.items.map fun v => .volume v.1 v.2)
  return (← Step.ofHalting volumes.toList).length

def onMemoryDiscovered (config : LayoutConfig) (image : FspImage) (p : Platform ω) :
    Step (Discovery ω) Empty DiscoverySummary := do
  let bits ← onWorld fun w =>
    let (bits, w) := p.cpu.addressBits config.fallbackAddressBits w
    .ok bits w
  publish [.cpu bits config.ioSpaceBits]
  let hobs := (← get).hobs
  let (_, high) ← Step.ofHalting hobs.systemMemory
  let top ← Step.orFatal (fun e => "FSP reserved memory resource not found: " ++ e.name)
    (Step.ofFallible hobs.topOfLowMemory)
  migrateConfig image.configSize
  modify fun s => { s with world := p.callback.memoryInitDone hobs s.world }
  let index ← onWorld fun w =>
    let (index, w) := p.callback.callingIndex w
    .ok index w
  if index = .tempRamExit then
    Step.orFatal (fun e => "cache policy programming failed: " ++ e.name)
      (onWorld (CachePolicy.program p.cache top high))
    modify fun s => { s with world := p.callback.tempRamExitDone s.world }
  let volumes ← reportVolumes image
  return ⟨bits, top, high, index = .tempRamExit, volumes⟩

end Discovery
end PlatformInit
