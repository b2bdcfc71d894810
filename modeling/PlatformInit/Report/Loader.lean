import PlatformInit.Cpu.Exception
import PlatformInit.Loader.Stage
import PlatformInit.Report.Platform

/-!
Reports of descriptor tables, of the boot loader's pool and of its stages.
-/
set_option autoImplicit false
namespace PlatformInit

instance : ToValue ExceptionReport where
  toValue r := .record [("vector", toValue r.vector), ("segment", toValue r.segment),
    ("ip", toValue r.instructionPointer)]

instance : ToValue GateLow where
  toValue g := .record [("bits", .text (hexText g.toBits.toNat)),
    ("offset_low", .text (hexText g.offsetLow.toNat)), ("selector", .text (hexText g.selector.toNat)),
    ("ist", .count g.stackTable.toNat), ("reserved_0", .count g.reservedLow.toNat),
    ("gate_type", .count g.type.toNat), ("reserved_1", .count g.reservedHigh.toNat),
    ("dpl", .count g.privilege.toNat), ("present", .flag g.present),
    ("offset_mid", .text (hexText g.offsetMid.toNat))]

def GateLow.override (g : GateLow) (v : Value) : Option GateLow := do
  return { g with
    stackTable := .ofNat 3 (← v.fieldD "ist" g.stackTable.toNat)
    type := .ofNat 4 (← v.fieldD "gate_type" g.type.toNat)
    privilege := .ofNat 2 (← v.fieldD "dpl" g.privilege.toNat) }

instance : ToValue Gate where
  toValue g := .record [("low", toValue g.low), ("offset_high", toValue g.offsetHigh),
    ("reserved", .count g.reserved.toNat), ("handler", toValue g.handler)]

instance : ToValue Idt where
  toValue t := .record [("ldr_global", toValue t.context), ("limit", .count Idt.limit.toNat),
    ("gates", .list (t.gates.map fun g =>
      .list [.text (hexText g.low.toBits.toNat), toValue g.offsetHigh]))]

def LoaderConfig.requested (v : Value) : Option LoaderConfig := do
  let d : LoaderConfig := {}
  let v := (v.get? "config").getD .null
  return { reservedSize := ← v.fieldD "loader_reserved_memory_size" d.reservedSize
           hobStackSize := ← v.fieldD "loader_hob_stack_size" d.hobStackSize
           temporaryPoolSize := ← v.fieldD "temporary_pool_size" d.temporaryPoolSize
           stackAlignment := ← v.fieldD "stack_alignment" d.stackAlignment
           payloadStackSize := ← v.fieldD "payload_stack_size" d.payloadStackSize
           fspAreaBase := ← v.fieldD "fsp_area_base" d.fspAreaBase
           printMask := ← v.fieldD "debug_print_error_level" d.printMask }

instance : ToValue PoolLayout where
  toValue l := .record [("mem_pool_start", toValue l.start), ("mem_pool_end", toValue l.stop),
    ("context", toValue l.context), ("idt", toValue l.idt), ("gdt", toValue l.gdt),
    ("mem_pool_curr_top", toValue l.poolTop), ("stack_top", toValue l.stackTop),
    ("mem_usable_top", toValue l.usableTop), ("switch_stack_top", toValue l.switchStackTop)]

instance : OfValue NotifyPhase := ⟨byName? NotifyPhase.name NotifyPhase.all⟩

end PlatformInit
