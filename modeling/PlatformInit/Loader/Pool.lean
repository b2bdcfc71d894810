import PlatformInit.Context.Record
import PlatformInit.Cpu.Gdt
import PlatformInit.Cpu.Idt
import PlatformInit.Word.Align

/-!
The boot loader's pool in permanent memory.

The pool lies below the region reserved for the silicon package, with room for a stack and the
hand-off list between the two. The global context and the descriptor tables are carved from its top.
-/
set_option autoImplicit false
namespace PlatformInit

structure LoaderConfig where
  reservedSize : UInt32 := 0x100000
  hobStackSize : UInt32 := 0x1000
  temporaryPoolSize : UInt32 := 0xE000
  stackAlignment : UInt64 := 0x100
  payloadStackSize : UInt32 := 0x80000
  /-- The address below which the components are mapped; four bytes under it lies the slot that
  names the payload. -/
  fspAreaBase : UInt64 := 0xFFF80000
  printMask : UInt32 := GlobalContext.defaultPrintMask

structure PoolLayout where
  start : UInt64
  stop : UInt64
  context : UInt64
  idt : UInt64
  gdt : UInt64
  poolTop : UInt64 := gdt
  stackTop : UInt64
  usableTop : UInt64
  switchStackTop : UInt64
  deriving DecidableEq

namespace PoolLayout

def alignment : UInt64 := 0x10

/-- The highest aligned address with room for `size` bytes below `top`, if it is in the pool. -/
def carve (start top : UInt64) (size : Nat) : Except BootError UInt64 :=
  if size ≤ top.toNat then
    match alignDown (top - .ofNat size) alignment with
    | .error _ => .error .resourceExhausted
    | .ok address => if start ≤ address then .ok address else .error .resourceExhausted
  else .error .resourceExhausted

def compute (base length : UInt64) (config : LoaderConfig) : Fallible BootError PoolLayout := do
  if base = 0 then Fallible.fail .resourceNotFound
  else if base < config.reservedSize.toUInt64 then Fallible.fail .resourceExhausted
  else
    let start := base - config.reservedSize.toUInt64
    let stop ← Fallible.ofHalting (sub64 base config.hobStackSize.toUInt64)
    if stop ≤ start then Fallible.fail .configurationInvalid
    else
      let context ← Fallible.ofExcept (carve start stop GlobalContext.size)
      let idt ← Fallible.ofExcept (carve start context Idt.size)
      let gdt ← Fallible.ofExcept (carve start idt Gdt.size)
      match alignDown base config.stackAlignment with
      | .error _ => Fallible.fail .configurationInvalid
      | .ok switchStackTop =>
        let usableTop ← Fallible.ofHalting (add64 base length)
        return ⟨start, stop, context, idt, gdt, gdt, base, usableTop, switchStackTop⟩

/-- Writes the bounds of the pool into a context; addresses lose their bits above the low word. -/
def apply (l : PoolLayout) (hobList : UInt64) (c : GlobalContext) : GlobalContext :=
  { c with
    hobList
    stackTop := l.stackTop.toUInt32
    poolEnd := l.stop.toUInt32
    poolStart := l.start.toUInt32
    poolTop := l.poolTop.toUInt32
    poolBottom := l.start.toUInt32
    usableTop := l.usableTop.toUInt32 }

end PoolLayout
end PlatformInit
