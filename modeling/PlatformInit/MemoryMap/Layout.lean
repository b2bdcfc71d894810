import PlatformInit.Smram.Descriptor
import PlatformInit.Word.Align

/-!
The layout of memory found at start-up.

Low memory is split, from the top down, into TSEG, the region reserved for the silicon package, and
system memory. The sizes come from the chipset.
-/
set_option autoImplicit false
namespace PlatformInit

structure LayoutConfig where
  defaultTsegSize : UInt32 := 0x1000000
  reservedLength : UInt32 := 0x400000
  fallbackAddressBits : UInt8 := 36
  ioSpaceBits : UInt8 := 16

structure Chipset (ω : Type) where
  readCmos : UInt8 → ω → UInt8 × ω
  queryTseg : ω → UInt16 × ω
  writeTseg : UInt16 → ω → ω

def tsegQuery : UInt16 := 0xFFFF

namespace Chipset
variable {ω ε : Type}

def cmos (c : Chipset ω) (index : UInt8) : Step ω ε UInt8 := fun w =>
  let (value, w) := c.readCmos index w
  .ok value w

/-- Memory below 4 GiB: CMOS counts 64 KiB units above 16 MiB. -/
def lowMemory (c : Chipset ω) : Step ω ε UInt32 := do
  let high ← c.cmos 0x35
  let low ← c.cmos 0x34
  let units := high.toUInt32 <<< 8 ||| low.toUInt32
  Step.ofHalting (add32 (units <<< 16) 0x1000000)

def highMemory (c : Chipset ω) : Step ω ε UInt64 := do
  let high ← c.cmos 0x5d
  let mid ← c.cmos 0x5c
  let low ← c.cmos 0x5b
  let units := high.toUInt64 <<< 16 ||| mid.toUInt64 <<< 8 ||| low.toUInt64
  return units <<< 16

/-- The size of TSEG. A chipset without an extended one is told the default size. -/
def tsegSize (c : Chipset ω) (config : LayoutConfig) : Step ω ε UInt32 := fun w =>
  let (mbytes, w) := c.queryTseg w
  if mbytes = tsegQuery then
    .ok config.defaultTsegSize (c.writeTseg (config.defaultTsegSize >>> 20).toUInt16 w)
  else .ok (mbytes.toUInt32 <<< 20) w

end Chipset

structure MemoryLayout where
  lowLength : UInt32
  highLength : UInt64
  tsegBase : UInt32
  tsegSize : UInt32
  reservedBase : UInt32
  reservedSize : UInt32
  deriving DecidableEq

namespace MemoryLayout

/-- Reads the chipset and splits low memory, which has to be larger than TSEG and the reserved
region together. -/
def detect {ω : Type} (c : Chipset ω) (config : LayoutConfig) : Step ω BootError MemoryLayout := do
  let lowLength ← c.lowMemory
  let highLength ← c.highMemory
  let tsegSize ← c.tsegSize config
  let reservedSize := config.reservedLength
  if lowLength.toNat ≤ reservedSize.toNat + tsegSize.toNat then Step.fail .configurationInvalid
  else
    let tsegBase ← Step.ofHalting (sub32 lowLength tsegSize)
    let reservedBase ← Step.ofHalting (sub32 tsegBase reservedSize)
    return { lowLength, highLength, tsegBase, tsegSize, reservedBase, reservedSize }

def resource (kind attributes : UInt32) (start length : UInt64) (owner : Guid) : Hob :=
  .resource { owner, kind, attributes, start, length }

def smramRange (l : MemoryLayout) : SmramRange where
  physicalStart := l.tsegBase.toUInt64
  cpuStart := l.tsegBase.toUInt64
  size := l.tsegSize.toUInt64
  state := RegionState.closed ||| RegionState.cacheable

open ResourceDescriptor in
def hobs (l : MemoryLayout) : Except Halt HobList := do
  let systemLength ← sub64 l.reservedBase.toUInt64 size1M
  let high :=
    if l.highLength = 0 then []
    else [resource systemMemory untestedMemory size4G l.highLength .zero]
  return [resource systemMemory testedMemory 0 size640K .zero,
      resource reserved testedMemory size640K size384K .zero,
      resource systemMemory testedMemory size1M systemLength .zero,
      resource reserved testedMemory l.reservedBase.toUInt64 l.reservedSize.toUInt64 .reservedMemory]
    ++ high
    ++ [resource reserved testedMemory l.tsegBase.toUInt64 l.tsegSize.toUInt64 .tsegMemory,
      .guidExtension .smramMemory (DescriptorBlock.encode [l.smramRange])]

end MemoryLayout
end PlatformInit
