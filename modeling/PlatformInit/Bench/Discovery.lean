import PlatformInit.Bench.Platform

/-!
Memory discovery with scripted collaborators, and with configuration blocks whose handles may be
stale.
-/
set_option autoImplicit false
namespace PlatformInit.Bench

structure DiscoverySetup where
  config : LayoutConfig
  image : FspImage
  platform : Discovery.Platform (Traced DiscoveryWorld)
  start : Discovery (Traced DiscoveryWorld)
  memoryUpd : Option ConfigHandle
  siliconUpd : Option ConfigHandle

namespace DiscoverySetup

def insert (a : ConfigArena) : Option Bytes → ConfigArena × Option ConfigHandle
  | none => (a, none)
  | some block =>
    let (a, h) := a.insert block
    (a, some h)

def contextAddress : UInt64 := 0x20000000

def installed (memoryUpd siliconUpd : Option ConfigHandle) : Option (ContextStore × Memory) := do
  let c ← (GlobalContext.temporary 0xFEF00000 0xE000).toOption
  let m := GlobalContext.store .blank contextAddress { c with memoryUpd, siliconUpd }
  return (← (ContextStore.empty.install m contextAddress).toOption, m)

def cache (v : Value) : Option (Except Halt (CacheController (Traced DiscoveryWorld))) := do
  if v.has "msrs" then
    return (Mtrr.Controller.new silentMsrs (← v.fieldD "mtrr_bits" 36)).map (·.cacheController)
  else
    let script : CacheScript ← ofValue? v
    return .ok (script.controller DiscoveryWorld.cacheCalls
      fun w => { w with cacheCalls := w.cacheCalls + 1 })

/-- The setup that a request describes, on a given cache controller. With `stale`, the arena moves on
before the context is installed: `fspm` leaves both handles of the context old, `fsps` only the
silicon component's. -/
def onCache (v : Value) (cache : CacheController (Traced DiscoveryWorld)) : Option DiscoverySetup := do
  let memoryBlock : Option Bytes ← v.field? "fspm"
  let (arena, memoryUpd) := insert .empty memoryBlock
  let (arena, siliconUpd) := insert arena (← v.field? "fsps")
  let keep := match memoryUpd, memoryBlock with
    | some h, some block => [(h, block.length)]
    | _, _ => []
  let (arena, named) ← match (← v.field? "stale" : Option String) with
    | none => pure (arena, memoryUpd)
    | some which => do
      let (arena, handles) ← (arena.migrate keep).toOption
      pure (arena, if which = "fsps" then handles[0]? else memoryUpd)
  let (store, memory) ← if v.flagged "no_context" then pure (ContextStore.empty, Memory.blank)
    else installed named siliconUpd
  return {
    config := ← LayoutConfig.requested v
    image := ⟨← v.field "base", ← v.field "image", ← v.field "cfg_region_size"⟩
    platform := ⟨silentCpu (← v.field "max_leaf") (← v.field "size_leaf"), cache,
      callback (← v.field "api")⟩
    start := { hobs := ← v.items "hobs", store, memory, arena,
               world := .new ⟨.ofList (← v.items "msrs"), 0⟩ }
    memoryUpd := named
    siliconUpd }

def requested (v : Value) : Option (Except Halt DiscoverySetup) := do
  match ← cache v with
  | .error h => return .error h
  | .ok cache => return .ok (← onCache v cache)

def run (s : DiscoverySetup) (runs : Nat) : List Value × Discovery (Traced DiscoveryWorld) :=
  go s.start runs
where
  go (d : Discovery (Traced DiscoveryWorld)) : Nat → List Value × Discovery (Traced DiscoveryWorld)
    | 0 => ([], d)
    | runs + 1 =>
      let (answer, d) := Answer.ofStep (Discovery.onMemoryDiscovered s.config s.image s.platform) d
      let reported := Value.record [("result", .orHalt answer), ("trace", d.world.trace)]
      let d := { d with world := d.world.clear }
      match answer with
      | .error _ => ([reported], d)
      | .ok _ =>
        let (rest, d) := go d runs
        (reported :: rest, d)

end DiscoverySetup
end PlatformInit.Bench
