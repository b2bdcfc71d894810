import PlatformInit.Fault

/-!
The width of physical addresses.
-/
set_option autoImplicit false
namespace PlatformInit

/-- Processor identification over a state `ω`: the first word reported for a leaf. -/
structure CpuId (ω : Type) where
  query : UInt32 → ω → UInt32 × ω

namespace CpuId

def extendedLeaf : UInt32 := 0x80000000
def addressSizeLeaf : UInt32 := 0x80000008

/-- The width that the processor reports, or `fallback` when it has no leaf for it. -/
def addressBits {ω : Type} (cpu : CpuId ω) (fallback : UInt8) (w : ω) : UInt8 × ω :=
  let (maxLeaf, w) := cpu.query extendedLeaf w
  if addressSizeLeaf ≤ maxLeaf then
    let (sizes, w) := cpu.query addressSizeLeaf w
    (sizes.toUInt8, w)
  else (fallback, w)

end CpuId
end PlatformInit
