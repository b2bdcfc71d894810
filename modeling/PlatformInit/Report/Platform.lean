import PlatformInit.MemoryMap.Discovery
import PlatformInit.Report.Firmware

/-!
Reports of log levels, contexts, memory layouts and cache policies.
-/
set_option autoImplicit false
namespace PlatformInit

def byName? {α : Type} (name : α → String) (all : List α) : Value → Option α
  | .text s => all.find? (name · == s)
  | _ => none

instance : OfValue EfiError where
  ofValue? v :=
    match byName? EfiError.name EfiError.known v, v with
    | some e, _ => some e
    | none, .text s =>
      if s.startsWith "Unknown(0x" && s.endsWith ")" then
        (Hex.number? (s.toList.drop 10).dropLast).map fun n => .unknown (.ofNat n)
      else none
    | none, _ => none

namespace Log

def Level.all : List Level := [.error, .warn, .info, .debug, .trace]

def Filter.name : Filter → String
  | .off => "Off"
  | .upTo .error => "Error"
  | .upTo .warn => "Warn"
  | .upTo .info => "Info"
  | .upTo .debug => "Debug"
  | .upTo .trace => "Trace"

end Log

instance : OfValue Log.Level where
  ofValue?
    | .text s => Log.Level.all.find? (·.name == s.toUpper)
    | _ => none

instance : OfValue Log.Filter where
  ofValue? v :=
    match v with
    | .text s => if s.toUpper == "OFF" then some .off else (ofValue? v).map .upTo
    | _ => none

instance : ToValue Log.Filter := ⟨fun f => .text f.name⟩

instance : OfValue Log.Format where
  ofValue?
    | .text "Standard" => some .standard
    | .text "Json" => some .json
    | .text "VerboseJson" => some .verboseJson
    | _ => none

instance : OfValue Log.Record where
  ofValue? v := do
    return { level := ← v.field "level", target := ← v.field "target",
             message := ← v.field "message", file := ← v.field? "file", line := ← v.field? "line" }

instance : ToValue ConfigHandle where
  toValue h := .record [("generation", .count h.generation.toNat)]

instance : ToValue GlobalContext where
  toValue c := .record [("signature", toValue c.signature), ("boot_mode", toValue c.bootMode),
    ("stack_top", toValue c.stackTop), ("mem_pool_end", toValue c.poolEnd),
    ("mem_pool_start", toValue c.poolStart), ("mem_pool_curr_top", toValue c.poolTop),
    ("mem_pool_curr_bottom", toValue c.poolBottom), ("mem_usable_top", toValue c.usableTop),
    ("debug_print_error_level", toValue c.printMask), ("hob_list", toValue c.hobList),
    ("fspm_upd", toValue c.memoryUpd), ("fsps_upd", toValue c.siliconUpd)]

namespace GlobalContext

def override (c : GlobalContext) (v : Value) : Option GlobalContext := do
  return { c with
    signature := ← v.fieldD "signature" c.signature
    bootMode := ← v.fieldD "boot_mode" c.bootMode
    stackTop := ← v.fieldD "stack_top" c.stackTop
    poolEnd := ← v.fieldD "mem_pool_end" c.poolEnd
    poolStart := ← v.fieldD "mem_pool_start" c.poolStart
    poolTop := ← v.fieldD "mem_pool_curr_top" c.poolTop
    poolBottom := ← v.fieldD "mem_pool_curr_bottom" c.poolBottom
    usableTop := ← v.fieldD "mem_usable_top" c.usableTop
    printMask := ← v.fieldD "debug_print_error_level" c.printMask
    hobList := ← v.fieldD "hob_list" c.hobList }

def requested (v : Value) : Option (Except Halt GlobalContext) := do
  let bounds : Option (UInt32 × UInt32) ← v.field? "temporary"
  let set := (v.get? "set").getD .null
  match bounds with
  | none => return .ok (← blank.override set)
  | some (stackTop, poolSize) =>
    match temporary stackTop poolSize with
    | .error h => return .error h
    | .ok c => return .ok (← c.override set)

end GlobalContext

instance : ToValue MemoryLayout where
  toValue l := .record [("low", toValue l.lowLength), ("high", toValue l.highLength),
    ("tseg_base", toValue l.tsegBase), ("tseg_size", toValue l.tsegSize),
    ("reserved_base", toValue l.reservedBase), ("reserved_size", toValue l.reservedSize)]

instance : OfValue MemoryLayout where
  ofValue? v := do
    return ⟨← v.field "low", ← v.field "high", ← v.field "tseg_base", ← v.field "tseg_size",
      ← v.field "reserved_base", ← v.field "reserved_size"⟩

def MemoryLayout.published (l : MemoryLayout) : Value :=
  match l.hobs with
  | .error h => describe h
  | .ok hobs =>
    .record [("hobs", toValue hobs), ("top_of_low_memory", toValue hobs.topOfLowMemory)]

def LayoutConfig.requested (v : Value) : Option LayoutConfig := do
  let d : LayoutConfig := {}
  let v := (v.get? "config").getD .null
  return { defaultTsegSize := ← v.fieldD "default_tseg_size" d.defaultTsegSize
           reservedLength := ← v.fieldD "fsp_reserved_memory_length" d.reservedLength
           fallbackAddressBits := ← v.fieldD "fallback_physical_address_bits" d.fallbackAddressBits
           ioSpaceBits := ← v.fieldD "io_space_bits" d.ioSpaceBits }

namespace CacheType

def all : List CacheType := [uncacheable, writeCombining, writeThrough, writeProtected, writeBack]

def name : CacheType → String
  | uncacheable => "Uncacheable"
  | writeCombining => "WriteCombining"
  | writeThrough => "WriteThrough"
  | writeProtected => "WriteProtected"
  | writeBack => "WriteBack"

end CacheType

instance : ToValue CacheType := ⟨fun t => .text t.name⟩
instance : OfValue CacheType := ⟨byName? CacheType.name CacheType.all⟩

instance : ToValue CacheRange where
  toValue r := .list [toValue r.base, toValue r.length, toValue r.type, toValue r.type.code]

namespace ApiIndex

def name : ApiIndex → String
  | tempRamInit => "TempRamInit"
  | fspInit => "FspInit"
  | notifyPhase => "NotifyPhase"
  | memoryInit => "MemoryInit"
  | tempRamExit => "TempRamExit"
  | siliconInit => "SiliconInit"

end ApiIndex

instance : ToValue ApiIndex := ⟨fun i => .text i.name⟩

instance : OfValue ApiIndex := ⟨fun v => (ofValue? v).bind ApiIndex.ofCode?⟩

instance : ToValue DiscoverySummary where
  toValue s := .record [("bits", toValue s.addressBits),
    ("top_of_low_memory", toValue s.topOfLowMemory), ("high", toValue s.highMemory),
    ("cache_reprogrammed", toValue s.cacheReprogrammed), ("firmware_volumes", .count s.volumes)]

end PlatformInit
