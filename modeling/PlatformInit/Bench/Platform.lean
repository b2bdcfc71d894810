import PlatformInit.Bench.Trace
import PlatformInit.Cache.Mtrr
import PlatformInit.Report.Platform

/-!
Scripted chipset, processor, cache and registers, each with a trace of what was asked of it.
-/
set_option autoImplicit false
namespace PlatformInit.Bench

def cpuId (maxLeaf sizeLeaf : UInt32) : CpuId (Traced Unit) where
  query leaf t :=
    (if leaf = CpuId.extendedLeaf then maxLeaf
      else if leaf = CpuId.addressSizeLeaf then sizeLeaf else 0, t.add (toValue leaf))

def chipset (cells : List (UInt8 × UInt8)) (other : UInt8) (tseg : UInt16) : Chipset (Traced Unit) where
  readCmos index t :=
    (((cells.reverse.find? (·.1 = index)).map (·.2)).getD other, t.note "cmos" [toValue index])
  queryTseg t := (tseg, t.note "query" [])
  writeTseg mbytes t := t.note "write" [.count mbytes.toNat]

structure CacheScript where
  failReset : Option EfiError
  failAt : Option (Nat × EfiError)

instance : OfValue CacheScript where
  ofValue? v := do return ⟨← v.field? "fail_reset", ← v.field? "fail_at"⟩

/-- A cache controller that counts the ranges it is given by `count` and `advance`. -/
def CacheScript.controller {ω : Type} (s : CacheScript) (count : ω → Nat) (advance : ω → ω) :
    CacheController (Traced ω) where
  reset t :=
    let t := t.note "reset" []
    match s.failReset with
    | some e => .error (.error e) t
    | none => .ok () t
  setAttributes base length type t :=
    let n := count t.world
    let t := (t.change advance).note "set_attributes" [toValue base, toValue length, toValue type]
    match s.failAt with
    | some (k, e) => if k = n then .error (.error e) t else .ok () t
    | none => .ok () t

abbrev RegisterFile := List (UInt32 × UInt64)

namespace RegisterFile

def get (f : RegisterFile) (msr : UInt32) : UInt64 := ((f.find? (·.1 = msr)).map (·.2)).getD 0

def set (f : RegisterFile) (msr : UInt32) (value : UInt64) : RegisterFile :=
  f.takeWhile (·.1 < msr) ++ [(msr, value)] ++ f.dropWhile (·.1 ≤ msr)

def ofList (entries : List (UInt32 × UInt64)) : RegisterFile :=
  entries.foldl (fun f (msr, value) => f.set msr value) []

def used (f : RegisterFile) : Value := toValue (f.filter (·.2 ≠ 0))

end RegisterFile

def msrAccess : MsrAccess (Traced RegisterFile) where
  read msr t := t.world.get msr
  write msr value t := (t.change (·.set msr value)).add (toValue (msr, value))

structure DiscoveryWorld where
  registers : RegisterFile
  cacheCalls : Nat

def silentMsrs : MsrAccess (Traced DiscoveryWorld) where
  read msr t := t.world.registers.get msr
  write msr value t := t.change fun w => { w with registers := w.registers.set msr value }

def silentCpu (maxLeaf sizeLeaf : UInt32) : CpuId (Traced DiscoveryWorld) where
  query leaf t := (((cpuId maxLeaf sizeLeaf).query leaf (.new ())).1, t)

def callback (api : ApiIndex) : ApiCallback (Traced DiscoveryWorld) where
  callingIndex t := (api, t.note "calling_index" [])
  memoryInitDone hobs t := t.note "memory_init_done" [.count hobs.length]
  tempRamExitDone t := t.note "temp_ram_exit_done" []

end PlatformInit.Bench
