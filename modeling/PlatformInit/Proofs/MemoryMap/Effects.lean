import PlatformInit.MemoryMap.Discovery
import PlatformInit.Proofs.Noted

/-!
The effects of the sequence that follows the discovery of memory.

`Platform.noting` lets any processor, cache and boot loader do what they do and notes each call of the
cache and of the boot loader, with its answer; the sequence is the same with notes and without.
`complete` is what it does once the configuration blocks have moved.
-/
set_option autoImplicit false
namespace PlatformInit

open Step (Ends Follows Keeps)

/-- What the sequence does to its own state and to the outside. -/
inductive DiscoveryEffect where
  | publish (hob : Hob)
  | moveConfig
  | memoryInitDone (hobs : HobList)
  | resetCache
  | setAttributes (range : CacheRange)
  | tempRamExitDone
  deriving DecidableEq

namespace DiscoveryEffect

def hob? : DiscoveryEffect → Option Hob
  | publish hob => some hob
  | _ => none

def isCall : DiscoveryEffect → Bool
  | publish _ | moveConfig => false
  | memoryInitDone _ | resetCache | setAttributes _ | tempRamExitDone => true

def touchesCache : DiscoveryEffect → Bool
  | resetCache | setAttributes _ => true
  | publish _ | moveConfig | memoryInitDone _ | tempRamExitDone => false

end DiscoveryEffect

structure DiscoveryEvent where
  effect : DiscoveryEffect
  answer : Except (Fault EfiError) Unit

def DiscoveryEffect.done (effect : DiscoveryEffect) : DiscoveryEvent := ⟨effect, .ok ()⟩

namespace Discovery
variable {ω ω' : Type}

def cacheCall (effect : DiscoveryEffect) (x : Step ω EfiError Unit) :
    Step (Noted ω DiscoveryEvent) EfiError Unit :=
  Noted.call (fun w => ⟨effect, Step.answer x w⟩) x

def Platform.noting (p : Platform ω) : Platform (Noted ω DiscoveryEvent) where
  cpu := ⟨fun leaf n =>
    let (value, w) := p.cpu.query leaf n.world
    (value, ⟨w, n.calls⟩)⟩
  cache := {
    reset := cacheCall .resetCache p.cache.reset
    setAttributes base length type :=
      cacheCall (.setAttributes ⟨base, length, type⟩) (p.cache.setAttributes base length type) }
  callback := {
    callingIndex n :=
      let (index, w) := p.callback.callingIndex n.world
      (index, ⟨w, n.calls⟩)
    memoryInitDone hobs n :=
      ⟨p.callback.memoryInitDone hobs n.world, (DiscoveryEffect.memoryInitDone hobs).done :: n.calls⟩
    tempRamExitDone n :=
      ⟨p.callback.tempRamExitDone n.world, DiscoveryEffect.tempRamExitDone.done :: n.calls⟩ }

def mapWorld (f : ω' → ω) (d : Discovery ω') : Discovery ω := { d with world := f d.world }

def noted (d : Discovery ω) (calls : List DiscoveryEvent) : Discovery (Noted ω DiscoveryEvent) :=
  { d with world := ⟨d.world, calls⟩ }

/-! ### The sequence after the move of the configuration blocks -/

def tearDown (p : Platform ω) (index : ApiIndex) (top high : UInt64) :
    Step (Discovery ω) Empty Unit :=
  if index = .tempRamExit then do
    Step.orFatal (fun e => "cache policy programming failed: " ++ e.name)
      (onWorld (CachePolicy.program p.cache top high))
    modify fun s => { s with world := p.callback.tempRamExitDone s.world }
  else pure ()

def askIndex (p : Platform ω) : Step (Discovery ω) Empty ApiIndex := onWorld fun w =>
  let (index, w) := p.callback.callingIndex w
  .ok index w

def askAddressBits (p : Platform ω) (fallback : UInt8) : Step (Discovery ω) Empty UInt8 :=
  onWorld fun w =>
    let (bits, w) := p.cpu.addressBits fallback w
    .ok bits w

def complete (image : FspImage) (p : Platform ω) (hobs : HobList) (bits : UInt8) (top high : UInt64) :
    Step (Discovery ω) Empty DiscoverySummary := do
  modify fun s => { s with world := p.callback.memoryInitDone hobs s.world }
  let index ← askIndex p
  tearDown p index top high
  let volumes ← reportVolumes image
  return ⟨bits, top, high, index = .tempRamExit, volumes⟩

theorem onMemoryDiscovered_eq (config : LayoutConfig) (image : FspImage) (p : Platform ω) :
    onMemoryDiscovered config image p = (do
      let bits ← askAddressBits p config.fallbackAddressBits
      publish [.cpu bits config.ioSpaceBits]
      let hobs := (← get).hobs
      let (_, high) ← Step.ofHalting hobs.systemMemory
      let top ← Step.orFatal (fun e => "FSP reserved memory resource not found: " ++ e.name)
        (Step.ofFallible hobs.topOfLowMemory)
      migrateConfig image.configSize
      complete image p hobs bits top high) := by
  have hjoin (index : ApiIndex) (top high : UInt64) (rest : Step (Discovery ω) Empty DiscoverySummary) :
      (tearDown p index top high >>= fun _ => rest) =
        if index = .tempRamExit then do
          Step.orFatal (fun e => "cache policy programming failed: " ++ e.name)
            (onWorld (CachePolicy.program p.cache top high))
          modify fun s => { s with world := p.callback.tempRamExitDone s.world }
          rest
        else rest := by
    unfold tearDown
    split
    · rw [bind_assoc]
    · rfl
  simp only [complete, hjoin]
  rfl

/-! ### Notes change nothing else -/

theorem addressBits_noting (p : Platform ω) (fallback : UInt8) (n : Noted ω DiscoveryEvent) :
    p.noting.cpu.addressBits fallback n =
      ((p.cpu.addressBits fallback n.world).1, ⟨(p.cpu.addressBits fallback n.world).2, n.calls⟩) := by
  unfold CpuId.addressBits Platform.noting
  dsimp only
  split <;> rfl

theorem onWorld_follows {ε α : Type} {f : ω' → ω} {x : Step ω' ε α} {y : Step ω ε α}
    (h : Follows f x y) : Follows (mapWorld f) (onWorld x) (onWorld y) :=
  Follows.focus (fun _ => rfl) (fun _ _ => rfl) h

theorem publish_follows (f : ω' → ω) (hobs : HobList) :
    Follows (mapWorld f) (publish hobs) (publish hobs) := Follows.modify fun _ => rfl

theorem migrateConfig_follows (f : ω' → ω) (configSize : Nat) :
    Follows (mapWorld f) (migrateConfig configSize) (migrateConfig configSize) := by
  refine Follows.get_bind fun s => ?_
  simp only [mapWorld]
  cases s.store.get s.memory with
  | error e => exact Follows.fatal _
  | ok context =>
    refine Follows.bind (Follows.ofFallible _) fun kept => ?_
    cases s.arena.migrate kept with
    | error e => exact Follows.fatal _
    | ok moved =>
      dsimp only
      cases s.store.update s.memory fun c =>
          { c with memoryUpd := moved.2[0]?, siliconUpd := moved.2[1]? } with
      | error e => exact Follows.fatal _
      | ok memory => exact Follows.set rfl

theorem reportVolumes_follows (f : ω' → ω) (image : FspImage) :
    Follows (mapWorld f) (reportVolumes image) (reportVolumes image) :=
  Follows.bind (publish_follows f _) fun _ => Follows.bind (Follows.ofFallible _) fun _ => Follows.pure _

theorem cacheCall_follows (effect : DiscoveryEffect) (x : Step ω EfiError Unit) :
    Follows Noted.world (cacheCall effect x) x := Noted.call_follows _ x

theorem program_follows (p : Platform ω) (top high : UInt64) :
    Follows Noted.world (CachePolicy.program p.noting.cache top high)
      (CachePolicy.program p.cache top high) := by
  refine Follows.bind (cacheCall_follows .resetCache p.cache.reset) fun _ => ?_
  refine Follows.bind (Follows.ofFallible _) fun ranges => Follows.forM (fun r => ?_) ranges
  exact cacheCall_follows (.setAttributes ⟨r.base, r.length, r.type⟩) _

theorem tearDown_follows (p : Platform ω) (index : ApiIndex) (top high : UInt64) :
    Follows (mapWorld Noted.world) (tearDown p.noting index top high) (tearDown p index top high) := by
  refine Follows.ite (Follows.bind ?_ fun _ => Follows.modify fun _ => rfl) (Follows.pure _)
  exact Follows.orFatal _ (onWorld_follows (program_follows p top high))

theorem complete_follows (image : FspImage) (p : Platform ω) (hobs : HobList) (bits : UInt8)
    (top high : UInt64) : Follows (mapWorld Noted.world) (complete image p.noting hobs bits top high)
      (complete image p hobs bits top high) := by
  refine Follows.bind (Follows.modify fun _ => rfl) fun _ => ?_
  refine Follows.bind (onWorld_follows fun _ => rfl) fun index => ?_
  refine Follows.bind (tearDown_follows p index top high) fun _ => ?_
  exact Follows.bind (reportVolumes_follows _ image) fun _ => Follows.pure _

theorem onMemoryDiscovered_follows (config : LayoutConfig) (image : FspImage) (p : Platform ω) :
    Follows (mapWorld Noted.world) (onMemoryDiscovered config image p.noting)
      (onMemoryDiscovered config image p) := by
  rw [onMemoryDiscovered_eq, onMemoryDiscovered_eq]
  refine Follows.bind (onWorld_follows ?_) fun bits => ?_
  · intro n
    simp only [addressBits_noting]
    rfl
  refine Follows.bind (publish_follows _ _) fun _ => Follows.get_bind fun s => ?_
  refine Follows.bind (Follows.ofFallible _) fun sums => ?_
  refine Follows.bind (Follows.orFatal _ (Follows.ofFallible _)) fun top => ?_
  refine Follows.bind (migrateConfig_follows _ _) fun _ => ?_
  exact complete_follows image p _ bits top _

end Discovery
end PlatformInit
