import PlatformInit.Bench.Mm
import PlatformInit.Bench.Pe

/-!
Loading a management mode (MM) core with a scripted launcher, cache and chipset.
-/
set_option autoImplicit false
namespace PlatformInit.Bench

def hideCores (hobs : HobList) : Value :=
  .list (hobs.map fun h =>
    match h with
    | .guidExtension name _ =>
      if name = Guid.mmCoreData then
        .record [("type", .text "guid"), ("name", toValue name), ("data", .text "<private>")]
      else toValue h
    | _ => toValue h)

structure LauncherScript where
  writeError : Option EfiError
  status : Status
  register : Bool

instance : OfValue LauncherScript where
  ofValue? v := do
    return ⟨← v.field? "write_error", ← v.fieldD "status" 0, ← v.fieldD "register" true⟩

def startCore (register : Bool) (hobs : HobList) (m : MmMachine) : MmMachine :=
  match hobs.findCore m.cores with
  | .error _ => m
  | .ok core =>
    let m := if register then m.updateCore core fun r => { r with registered := true } else m
    changeMm (fun w => { w with core := some core }) m

def LauncherScript.launcher (s : LauncherScript) : CoreLauncher MmMachine where
  writeImage address image m :=
    let m := noteMm "write_image" [toValue address, toValue image] m
    match s.writeError with
    | some e => .error e m
    | none => .ok () m
  invalidate base length := noteMm "invalidate" [toValue base, toValue length]
  startCore entryPoint bytes m :=
    match HobList.parse bytes with
    | .error e => (s.status, noteMm "start_core" [toValue entryPoint, describe e] m)
    | .ok hobs =>
      (s.status, startCore s.register hobs
        (noteMm "start_core" [toValue entryPoint, hideCores hobs] m))

structure IplSetup where
  parts : IplParts MmTrace
  volumes : List MappedVolume
  buffers : List CommBuffer
  trigger : MmiTrigger MmMachine
  start : HobList × MmMachine
  dispatches : Bool

def requestedVolumes (v : Value) : Option (List MappedVolume) := do
  let volumes : List MappedVolume ← v.items "volumes"
  if v.flagged "from_hobs" then
    let memory := volumes.foldl (fun m x => m.write x.base.toNat x.bytes) Memory.blank
    return MappedVolume.ofHobs memory (← v.items "hobs")
  else return volumes

namespace IplSetup

def cache (v : Value) : Option (CacheController MmTrace) := do
  let script : CacheScript ← ofValue? ((v.get? "cache").getD .null)
  return script.controller MmWorld.cacheCalls fun w => { w with cacheCalls := w.cacheCalls + 1 }

def requested (v : Value) : Option IplSetup := do
  let launcher : LauncherScript ← ofValue? ((v.get? "launcher").getD .null)
  return {
    parts := {
      config := ⟨v.flagged "fixed", ← v.fieldD "fixed_pages" 0⟩
      reader := peReader
      access := smramAccess
      cache := ← cache v
      launcher := launcher.launcher }
    volumes := ← requestedVolumes v
    buffers := ← requestedBuffers v
    trigger := ← requestedTrigger v
    start := (← v.items "hobs", .new freeMemory (.new (← MmWorld.requested v none)))
    dispatches := (← (v.field "mode" : Option String)) = "entry_point" }

def step (s : IplSetup) : Step (HobList × MmMachine) EfiError UInt64 :=
  if s.dispatches then Ipl.run s.parts s.volumes s.buffers s.trigger patience
  else Ipl.loadCore s.parts s.volumes

def run (s : IplSetup) : Nat → HobList × MmMachine → List Value × (HobList × MmMachine)
  | 0, state => ([], state)
  | runs + 1, state =>
    let (result, halted, hobs, machine) : Value × Bool × (HobList × MmMachine) :=
      match s.step state with
      | .ok core state => (.success (state.2.cores core).mailbox, false, state)
      | .error (.error e) state => (describe e, false, state)
      | .error (.halt h) state => (describe h, true, state)
    let report := Value.record [("result", result), ("trace", machine.world.trace),
      ("access", machine.world.world.window.report)]
    let state := (hobs, { machine with world := machine.world.clear })
    if halted then ([report], state)
    else
      let (rest, state) := run s runs state
      (report :: rest, state)

def published (hobs : HobList) (m : MmMachine) : Value :=
  match hobs.findCore m.cores with
  | .error e => describe e
  | .ok core =>
    let r := m.cores core
    let ranges := (DescriptorBlock.readRanges r.ranges.2.toNat
      (m.memory.read r.ranges.1.toNat (SmramRange.encodedSize * r.ranges.2.toNat))).getD []
    .success (Value.record [("image", toValue r.image), ("ranges", toValue ranges),
      ("ranges_published", .flag (r.ranges.1 ≠ 0)), ("bfv", toValue r.bootVolume),
      ("mailbox", r.mailbox)])

def session (v : Value) : Option Value := do
  let s ← requested v
  let (runs, hobs, machine) := s.run (← v.fieldD "runs" 1) s.start
  return .record [("runs", .list runs), ("hobs", hideCores hobs), ("private", published hobs machine)]

end IplSetup

def findCore (v : Value) : Option Value := do
  let volumes ← requestedVolumes v
  let found := match MappedVolume.findCore volumes with
    | .ok (base, image) => .success (Value.record [("base", toValue base), ("image", toValue image)])
    | .error e => describe e
  return .record [("volumes", .list (volumes.map fun x => .list [toValue x.base, .count x.bytes.length])),
    ("core", found)]

end PlatformInit.Bench
