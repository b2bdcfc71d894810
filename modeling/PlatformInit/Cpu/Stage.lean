import PlatformInit.Cpu.Gdt
import PlatformInit.Cpu.Idt

/-!
What a boot stage needs of the processor, and the descriptor tables that it prepares for it.
-/
set_option autoImplicit false
namespace PlatformInit

structure TableRegister where
  base : UInt64
  limit : UInt16
  deriving DecidableEq

structure StageCpu (ω : Type) where
  loadTables : Memory → TableRegister → TableRegister → ω → ω
  stub : ω → UInt8 → UInt64
  codeSelector : ω → UInt16
  readWord : UInt64 → ω → UInt32 × ω
  /-- Jumps to an entry point with the address of the hand-off list and a stack size. -/
  enterPayload : UInt64 → UInt64 → UInt32 → ω → ω

structure StageTables where
  gdt : UInt64
  idt : UInt64
  deriving DecidableEq

namespace StageTables
variable {ω : Type}

def prepare (t : StageTables) (context : UInt64) (cpu : StageCpu ω) (w : ω) (m : Memory) : Memory :=
  (m.write t.gdt.toNat Gdt.toBytes).write t.idt.toNat
    (Idt.populated context (cpu.codeSelector w) (cpu.stub w)).toBytes

def load (t : StageTables) (cpu : StageCpu ω) (m : Memory) (w : ω) : ω :=
  cpu.loadTables m ⟨t.gdt, Gdt.limit⟩ ⟨t.idt + Idt.gateOffset, Idt.limit⟩ w

end StageTables
end PlatformInit
